import AnnotatedLisp.Error

/-!
What the marks of an excerpt tell.

A mark stands for text that an excerpt leaves out. The one before the excerpt is there exactly if something comes
before it. Whether the one after it is there is found out by adding the number of the characters before the
excerpt to the bytes in it, which falls short of the bytes of the text if anything comes after the excerpt, but
also if a character before it takes more than one byte.
-/

namespace AnnotatedLisp

namespace ParseError

/-- The mark for a text that was left out. There is none for an empty one. -/
def mark (omitted : List Char) : String :=
  if omitted = [] then "" else elision

/-- Whether all characters of a text take one byte each. -/
def isNarrow (text : List Char) : Bool :=
  text.all fun c => c.utf8Size == 1

theorem byteCount_append (a b : List Char) : byteCount (a ++ b) = byteCount a + byteCount b := by
  induction a with
  | nil => exact (Nat.zero_add _).symm
  | cons c a ih =>
      change c.utf8Size + byteCount (a ++ b) = c.utf8Size + byteCount a + byteCount b
      rw [ih, Nat.add_assoc]

theorem length_le_byteCount (text : List Char) : text.length ≤ byteCount text := by
  induction text with
  | nil => exact Nat.le_refl 0
  | cons c text ih =>
      have : byteCount (c :: text) = c.utf8Size + byteCount text := rfl
      have := c.utf8Size_pos
      rw [List.length_cons]
      omega

/-- Only where all characters take one byte there are as many bytes as characters. -/
theorem byteCount_eq_length_iff {text : List Char} : byteCount text = text.length ↔ isNarrow text = true := by
  induction text with
  | nil => exact ⟨fun _ => rfl, fun _ => rfl⟩
  | cons c text ih =>
      have : byteCount (c :: text) = c.utf8Size + byteCount text := rfl
      have := c.utf8Size_pos
      have := length_le_byteCount text
      rw [isNarrow, List.all_cons, Bool.and_eq_true, beq_iff_eq, ← isNarrow, ← ih, List.length_cons]
      omega

theorem byteCount_eq_zero_iff {text : List Char} : byteCount text = 0 ↔ text = [] := by
  have := length_le_byteCount text
  constructor
  · intro none
    exact List.eq_nil_of_length_eq_zero (by omega)
  · rintro rfl
    rfl

section

variable {text : List Char} {offset : Nat}

/-- The comparison behind the mark at the end, in terms of what comes before and after the excerpt. -/
theorem falls_short_iff {start length : Nat} (inside : start ≤ text.length) :
    start + byteCount ((text.drop start).take length) < byteCount text ↔
      ¬ (isNarrow (text.take start) = true ∧ text.drop (start + length) = []) := by
  have whole : byteCount text = byteCount (text.take start) + byteCount ((text.drop start).take length) +
      byteCount (text.drop (start + length)) := by
    rw [← List.drop_drop, Nat.add_assoc, ← byteCount_append, List.take_append_drop, ← byteCount_append,
      List.take_append_drop]
  have before : (text.take start).length = start := List.length_take_of_le inside
  have := length_le_byteCount (text.take start)
  rw [← byteCount_eq_length_iff, ← byteCount_eq_zero_iff]
  omega

/-- The excerpt around an offset in a text: at most a hundred characters from twenty characters before the
offset on, or from the start of the text, with line feeds shown as an escape and carriage returns left out. The
mark before it tells the truth. So does the mark after it if all characters before the excerpt take one byte,
and otherwise there always is one. -/
theorem excerpt_marks (kind : ParseErrorKind) (message : String) (inside : offset ≤ text.length) :
    let start := offset - contextLead
    let shown := (text.drop start).take contextLength
    atOffset kind message text offset = ⟨kind, message, some
      (mark (text.take start) ++ String.ofList (shown.flatMap contextChar) ++
        if isNarrow (text.take start) then mark (text.drop (start + contextLength)) else elision)⟩ := by
  intro start shown
  have within : start ≤ text.length := Nat.le_trans (Nat.sub_le _ _) inside
  have first : (if start = 0 then "" else elision) = mark (text.take start) := by
    have empty : text.take start = [] ↔ start = 0 := by
      rw [← List.length_eq_zero_iff, List.length_take_of_le within]
    simp only [mark, empty]
  have last : (if start + byteCount shown < byteCount text then elision else "") =
      if isNarrow (text.take start) then mark (text.drop (start + contextLength)) else elision := by
    simp only [shown, falls_short_iff within]
    by_cases narrow : isNarrow (text.take start) = true
    · rw [if_pos narrow, mark]
      by_cases empty : text.drop (start + contextLength) = []
      · rw [if_pos empty, if_neg (not_not_intro ⟨narrow, empty⟩)]
      · rw [if_neg empty, if_pos fun both => empty both.2]
    · rw [if_neg narrow, if_pos fun both => narrow both.1]
  rw [atOffset, excerpt, ← first, ← last]

/-- At the end of thirty letters of one byte each the excerpt leaves out the first ten and nothing after it. Behind
a letter of two bytes it shows a hundred of so many commas and leaves out the last twenty-one. -/
theorem excerpt_marks_of_letters :
    let letters := List.replicate 30 'a'
    let commas := 'é' :: List.replicate 121 ','
    30 ≤ letters.length ∧ 21 ≤ commas.length ∧
      atOffset .incomplete "" letters 30 =
        ⟨.incomplete, "", some ("[...]" ++ String.ofList (List.replicate 20 'a'))⟩ ∧
      atOffset .invalidSyntax "" commas 21 =
        ⟨.invalidSyntax, "", some ("[...]" ++ String.ofList (List.replicate 100 ',') ++ "[...]")⟩ := by
  intro letters commas
  have short : 30 ≤ letters.length := by decide
  have long : 21 ≤ commas.length := by decide +kernel
  exact ⟨short, long, (excerpt_marks .incomplete "" short).trans (by decide +kernel),
    (excerpt_marks .invalidSyntax "" long).trans (by decide +kernel)⟩

/-- Twenty-one letters of two bytes each. The excerpt around the end of them leaves out the first and nothing after
it, but has a mark at its end all the same. -/
theorem excerpt_marked_of_accents :
    let text := List.replicate 21 'é'
    let shown := (text.drop (21 - contextLead)).take contextLength
    21 ≤ text.length ∧ text.drop (21 - contextLead + contextLength) = [] ∧
      (atOffset .incomplete "" text 21).context ≠ some (mark (text.take (21 - contextLead)) ++
        String.ofList (shown.flatMap contextChar) ++ mark (text.drop (21 - contextLead + contextLength))) := by
  decide +kernel

end

end ParseError

end AnnotatedLisp
