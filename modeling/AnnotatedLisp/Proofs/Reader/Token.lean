import AnnotatedLisp.Proofs.Form.Written
import AnnotatedLisp.Proofs.Number.RoundTrip

/-!
What words are read as.

A word character is no separator and starts nothing but a word. The text of a finite number is a word that
is read as that number, and a symbol is a word that is read as itself.
-/

namespace AnnotatedLisp

/-- No character is in both of two sets that lie apart. -/
theorem Ranges.not_holds_of_apart {r q : Ranges}
    (apart : ∀ a ∈ r, ∀ b ∈ q, a.2 < b.1 ∨ b.2 < a.1) {c : Char} (h : r.holds c = true) :
    q.holds c = false := by
  refine Bool.eq_false_iff.2 fun both => ?_
  obtain ⟨a, inR, low, high⟩ := holds_iff.1 h
  obtain ⟨b, inQ, low', high'⟩ := holds_iff.1 both
  have := apart a inR b inQ
  omega

namespace Token

/-- The ASCII letters and digits. -/
def asciiRanges : Ranges :=
  [(0x41, 0x5A), (0x61, 0x7A), (0x30, 0x39)]

theorem isAlphanum_eq (c : Char) : c.isAlphanum = asciiRanges.holds c := by
  rw [Bool.eq_iff_iff]
  simp only [Char.isAlphanum, Char.isAlpha, Char.isUpper, Char.isLower, Char.isDigit,
    Bool.or_eq_true, Bool.and_eq_true, decide_eq_true_eq, UInt32.le_iff_toNat_le, ge_iff_le,
    Ranges.holds_iff, asciiRanges, List.mem_cons, List.not_mem_nil, or_false, exists_eq_or_imp,
    exists_eq_left]
  exact or_assoc

theorem isAlphanumeric_of_isBlank {c : Char} (h : isBlank c = true) : isAlphanumeric c = false := by
  have ascii : asciiRanges.holds c = false := Ranges.not_holds_of_apart (by decide) h
  have rest : alphanumericRanges.holds c = false := Ranges.not_holds_of_apart (by decide +kernel) h
  unfold isAlphanumeric
  rw [isAlphanum_eq, ascii, rest, ite_self]

theorem isBlank_of_mem_wordMarks {c : Char} (h : c ∈ wordMarks) : isBlank c = false := by
  have all : wordMarks.all (fun c => !isBlank c) = true := by decide
  simpa using List.all_eq_true.1 all c h

/-- A word character does not separate. -/
theorem isSeparator_of_isWordChar {c : Char} (h : isWordChar c = true) : isSeparator c = false := by
  have comma : c ≠ ',' := by
    rintro rfl
    exact absurd h (by decide)
  have blank : isBlank c = false := by
    refine Bool.eq_false_iff.2 fun blank => ?_
    rw [isWordChar, isAlphanumeric_of_isBlank blank, Bool.false_or, List.contains_iff_mem] at h
    exact absurd blank (Bool.eq_false_iff.1 (isBlank_of_mem_wordMarks h))
  simp [isSeparator, blank, comma]

theorem isWordChar_of_isDigit {c : Char} (h : Decimal.isDigit c = true) : isWordChar c = true := by
  rw [Decimal.isDigit_eq] at h
  have alphanum : c.isAlphanum = true := by simp [Char.isAlphanum, h]
  have ascii : c.toNat < 0x80 := by
    simp only [Char.isDigit, Bool.and_eq_true, decide_eq_true_eq, UInt32.le_iff_toNat_le] at h
    exact Nat.lt_of_le_of_lt h.2 (by decide)
  simp [isWordChar, isAlphanumeric_of_isAlphanum ascii, alphanum]

theorem isWordChar_of_mem_chars {x : Float} (finite : x.isFinite = true) {c : Char}
    (h : c ∈ Number.chars x) : isWordChar c = true := by
  rcases Number.mem_chars finite h with digit | rfl | rfl
  · exact isWordChar_of_isDigit digit
  · decide
  · decide

theorem ofWord?_chars {x : Float} (finite : x.isFinite = true) :
    ofWord? (Number.chars x) = some (.number x) := by
  rw [ofWord?, Number.ofChars?_chars finite]

/-- What is read as a decimal starts with a digit. -/
theorem isDigit_of_ofText? {c : Char} {rest : List Char} {d : Decimal}
    (h : Decimal.ofText? (c :: rest) = some d) : Decimal.isDigit c = true := by
  by_contra other
  rw [Decimal.ofText?, List.takeWhile_cons_of_neg other] at h
  cases h

theorem ofText?_eq_none {text : List Char} (h : ∀ c ∈ text.head?, Decimal.isDigit c = false) :
    Decimal.ofText? text = none := by
  cases text with
  | nil => rfl
  | cons c rest =>
      cases read : Decimal.ofText? (c :: rest) with
      | none => rfl
      | some d => exact absurd (isDigit_of_ofText? read) (Bool.eq_false_iff.1 (h c rfl))

/-- What is read as a number looks like one. -/
theorem ofChars?_eq_none {word : List Char} (h : Number.looksNumeric word = false) :
    Number.ofChars? word = none := by
  unfold Number.ofChars?
  split
  next rest =>
    rw [ofText?_eq_none ?_, Option.map_none]
    cases rest <;> simp_all [Number.looksNumeric]
  next rest =>
    rw [ofText?_eq_none ?_, Option.map_none]
    cases rest <;> simp_all [Number.looksNumeric]
  · rw [ofText?_eq_none ?_, Option.map_none]
    rcases word with _ | ⟨c, _ | ⟨d, rest⟩⟩ <;> simp_all [Number.looksNumeric]

theorem ofWord?_symbol {name : String} (symbol : IsSymbol name) :
    ofWord? name.toList = some (.symbol name) := by
  have noValue := symbol.noValue
  simp only [List.mem_cons, List.not_mem_nil, or_false, not_or] at noValue
  rw [ofWord?, ofChars?_eq_none symbol.noNumber]
  simp only [symbol.noNumber, named, String.ofList_toList, noValue]
  rfl

end Token

end AnnotatedLisp
