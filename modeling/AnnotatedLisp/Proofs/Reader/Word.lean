import AnnotatedLisp.Proofs.Reader.Printed

/-!
Words are read whole.

A run of word characters that no other one follows is a single token, whatever stands around it. Its characters
alone decide what it is: a number if it is spelled as one, else a fault if it only begins as numbers do, and
else a name, of a value or of a symbol. Reading goes on right behind it.
-/

namespace AnnotatedLisp

namespace Decimal

/-- How a decimal is spelled: with digits, and if it has places with a point and one digit for each of them. -/
inductive Spells : Decimal → List Char → Prop
  | whole {digits : List Char} (inhabited : digits ≠ []) (all : ∀ c ∈ digits, isDigit c = true) :
      Spells ⟨ofDigits digits, 0⟩ digits
  | fraction {whole places : List Char} (inhabited : whole ≠ []) (inhabited' : places ≠ [])
      (all : ∀ c ∈ whole ++ places, isDigit c = true) :
      Spells ⟨ofDigits (whole ++ places), places.length⟩ (whole ++ '.' :: places)

theorem ofText?_eq_some_iff {text : List Char} {d : Decimal} :
    ofText? text = some d ↔ d.Spells text := by
  constructor
  · intro read
    have whole : ∀ c ∈ text.takeWhile isDigit, isDigit c = true := fun _ => List.mem_takeWhile_imp
    have split := List.takeWhile_append_dropWhile (p := isDigit) (l := text)
    unfold ofText? at read
    dsimp only at read
    split at read
    · cases read
    next inhabited =>
      have inhabited : text.takeWhile isDigit ≠ [] := by simpa using inhabited
      split at read
      next dropped =>
        cases read
        rw [dropped, List.append_nil] at split
        rw [split] at inhabited whole ⊢
        exact .whole inhabited whole
      next fraction dropped =>
        split at read
        next digits =>
          obtain ⟨inhabited', digits⟩ := Bool.and_eq_true_iff.1 digits
          cases read
          have spelled := Spells.fraction inhabited (by simpa using inhabited')
            (List.forall_mem_append.2 ⟨whole, List.all_eq_true.1 digits⟩)
          rwa [← dropped, split] at spelled
        · cases read
      · cases read
  · intro spelled
    cases spelled with
    | whole inhabited all =>
        obtain ⟨taken, dropped⟩ := span_digits [] all nofun
        rw [List.append_nil] at taken dropped
        simp [ofText?, taken, dropped, inhabited]
    | @fraction whole places inhabited inhabited' all =>
        obtain ⟨whole', places'⟩ := List.forall_mem_append.1 all
        obtain ⟨taken, dropped⟩ := span_digits ('.' :: places) whole' (by rintro _ ⟨⟩; rfl)
        have digits : places.all isDigit = true := List.all_eq_true.2 places'
        simp [ofText?, taken, dropped, inhabited, inhabited', digits]

end Decimal

namespace Number

/-- The number that a text spells: the double nearest to a decimal, with the sign in front of it if there is
one. -/
inductive Denotes : List Char → Float → Prop
  | unsigned {text : List Char} {d : Decimal} (spelled : d.Spells text) : Denotes text d.toFloat
  | positive {text : List Char} {d : Decimal} (spelled : d.Spells text) : Denotes ('+' :: text) d.toFloat
  | negative {text : List Char} {d : Decimal} (spelled : d.Spells text) : Denotes ('-' :: text) (-d.toFloat)

/-- The text begins as numbers do, with a digit or with a sign and a digit. -/
inductive Begins : List Char → Prop
  | digit {c : Char} {rest : List Char} (digit : Decimal.isDigit c = true) : Begins (c :: rest)
  | sign {sign c : Char} {rest : List Char} (isSign : sign = '-' ∨ sign = '+')
      (digit : Decimal.isDigit c = true) : Begins (sign :: c :: rest)

theorem ofChars?_eq_some_iff {word : List Char} {x : Float} : ofChars? word = some x ↔ Denotes word x := by
  constructor
  · intro read
    unfold ofChars? at read
    split at read <;> obtain ⟨d, spelled, rfl⟩ := Option.map_eq_some_iff.1 read
    · exact .negative (Decimal.ofText?_eq_some_iff.1 spelled)
    · exact .positive (Decimal.ofText?_eq_some_iff.1 spelled)
    · exact .unsigned (Decimal.ofText?_eq_some_iff.1 spelled)
  · intro denotes
    cases denotes with
    | unsigned spelled =>
        have read := Decimal.ofText?_eq_some_iff.2 spelled
        unfold ofChars?
        split
        -- A decimal starts with a digit, hence with no sign.
        · exact absurd (Token.isDigit_of_ofText? read) (by decide)
        · exact absurd (Token.isDigit_of_ofText? read) (by decide)
        · rw [read, Option.map_some]
    | positive spelled => rw [ofChars?, Decimal.ofText?_eq_some_iff.2 spelled, Option.map_some]
    | negative spelled => rw [ofChars?, Decimal.ofText?_eq_some_iff.2 spelled, Option.map_some]

theorem looksNumeric_iff {word : List Char} : looksNumeric word = true ↔ Begins word := by
  constructor
  · intro looks
    rcases word with _ | ⟨c, _ | ⟨d, rest⟩⟩
    · cases looks
    · exact .digit looks
    · rcases Bool.or_eq_true_iff.1 looks with digit | signed
      · exact .digit digit
      · obtain ⟨isSign, digit⟩ := Bool.and_eq_true_iff.1 signed
        exact .sign (by simpa using isSign) digit
  · intro begins
    cases begins with
    | @digit c rest digit => cases rest <;> simp [looksNumeric, digit]
    | sign isSign digit => rcases isSign with rfl | rfl <;> simp [looksNumeric, digit]

end Number

namespace Token

/-- What a word stands for that is no number: a value if it is one of three names, and else the symbol of its
name. -/
inductive Names : List Char → Datum → Prop
  | nil : Names "nil".toList .nil
  | true : Names "true".toList (.bool true)
  | false : Names "false".toList (.bool false)
  | symbol {word : List Char} (other : String.ofList word ∉ ["nil", "true", "false"]) :
      Names word (.symbol (String.ofList word))

theorem names_named (word : List Char) : Names word (named (String.ofList word)) := by
  have spelled {name : String} (same : String.ofList word = name) : word = name.toList := by
    rw [← same, String.toList_ofList]
  unfold named
  split
  next same => exact spelled same ▸ .nil
  next noNil =>
    split
    next same => exact spelled same ▸ .true
    next noTrue =>
      split
      next same => exact spelled same ▸ .false
      next noFalse => exact .symbol (by simp [noNil, noTrue, noFalse])

end Token

namespace Reader

open Token

variable {extent : Extent} {s u : State} {text word rest : List Char}

theorem Leads.scanFrom (h : Leads extent s text u) (stop : ∀ c ∈ rest.head?, isWordChar c = false) :
    scanFrom extent s (text ++ rest) = Reader.scanFrom extent u rest := by
  cases rest with
  | nil =>
      obtain ⟨t, read, awaits⟩ := h
      rw [List.append_nil, Reader.scanFrom, read]
      change t.finish extent = u.finish extent
      rw [State.finish, State.finish, awaits.last]
  | cons c rest =>
      rw [Reader.scanFrom, h.run_cons (stop c rfl)]
      rfl

/-- A word that stands for nothing is a fault, told at its first character. -/
theorem scanFrom_fault (blank : s.mode = .blank) (unfinished : s.isComplete extent = false)
    (inhabited : word ≠ []) (chars : ∀ c ∈ word, isWordChar c = true)
    (stop : ∀ c ∈ rest.head?, isWordChar c = false) (h : ofWord? word = none) :
    scanFrom extent s (word ++ rest) = .error ⟨.unexpected, s.offset⟩ := by
  obtain ⟨t, read, here⟩ : ∃ t, run extent s word = .ok t ∧ t.mode = .word s.offset word.reverse :=
    ⟨_, run_whole_word blank unfinished inhabited chars, rfl⟩
  have ended : t.endWord s.offset word.reverse = .error ⟨.unexpected, s.offset⟩ := by
    rw [State.endWord, List.reverse_reverse, h]
  rw [scanFrom, run_append, read]
  cases rest with
  | nil =>
      change t.finish extent = _
      simp only [State.finish, State.settle, here, ended]
      rfl
  | cons c rest =>
      change (run extent t (c :: rest) >>= _) = _
      simp only [run_cons, State.step, here, stop c rfl, ended]
      rfl

/-- Reading the word gives the form, and goes on with the text behind the word. -/
def ReadsAs (extent : Extent) (s : State) (word rest : List Char) (form : Datum) : Prop :=
  scanFrom extent s (word ++ rest) = scanFrom extent ((s.skip word.length).give form) rest

theorem readsAs_of_ofWord? (blank : s.mode = .blank) (unfinished : s.isComplete extent = false)
    (inhabited : word ≠ []) (chars : ∀ c ∈ word, isWordChar c = true)
    (stop : ∀ c ∈ rest.head?, isWordChar c = false) {form : Datum} (h : ofWord? word = some form) :
    ReadsAs extent s word rest form :=
  (leads_word blank unfinished inhabited chars h).scanFrom stop

/-- A run of word characters that no other one follows is read as a whole wherever a form can stand. It is the
number that it spells; if it spells none but begins as numbers do, it is a fault at its first character; and
otherwise it is a name. -/
theorem word_read_whole (extent : Extent) (s : State) (blank : s.mode = .blank)
    (unfinished : s.isComplete extent = false) (word rest : List Char) (inhabited : word ≠ [])
    (chars : ∀ c ∈ word, isWordChar c = true) (stop : ∀ c ∈ rest.head?, isWordChar c = false) :
    (∀ x, Number.Denotes word x → ReadsAs extent s word rest (.number x)) ∧
    ((∀ x, ¬ Number.Denotes word x) → Number.Begins word → ∃ fault,
      scanFrom extent s (word ++ rest) = .error fault ∧ fault.kind = .invalidSyntax ∧
        fault.offset = s.offset) ∧
    (¬ Number.Begins word → ∃ form, Names word form ∧ ReadsAs extent s word rest form) := by
  have reads {form : Datum} : ofWord? word = some form → ReadsAs extent s word rest form :=
    readsAs_of_ofWord? blank unfinished inhabited chars stop
  have noNumber (no : ∀ x, ¬ Number.Denotes word x) : Number.ofChars? word = none :=
    Option.eq_none_iff_forall_ne_some.2 fun x read => no x (Number.ofChars?_eq_some_iff.1 read)
  refine ⟨fun x denotes => reads ?_, fun no begins => ?_, fun name => ?_⟩
  · rw [ofWord?, Number.ofChars?_eq_some_iff.2 denotes]
  · refine ⟨_, scanFrom_fault blank unfinished inhabited chars stop ?_, rfl, rfl⟩
    rw [ofWord?, noNumber no]
    exact if_pos (Number.looksNumeric_iff.2 begins)
  · have plain : Number.looksNumeric word = false :=
      Bool.eq_false_iff.2 fun looks => name (Number.looksNumeric_iff.1 looks)
    refine ⟨_, names_named word, reads ?_⟩
    rw [ofWord?, ofChars?_eq_none plain, plain]
    rfl

/-- Behind `(f ` and in front of `)`, the word `-1.50` is a number, `1x` is a fault and `+.5` is a symbol. -/
theorem word_read_whole_of_arguments :
    let s : State := ⟨3, .blank, [⟨.round, [.symbol "f"]⟩], []⟩
    run .allForms .start "(f ".toList = .ok s ∧
      ReadsAs .allForms s "-1.50".toList [')'] (.number (-Decimal.toFloat ⟨150, 2⟩)) ∧
      (∃ fault, scanFrom .allForms s ("1x".toList ++ [')']) = .error fault ∧ fault.kind = .invalidSyntax ∧
        fault.offset = 3) ∧
      ReadsAs .allForms s "+.5".toList [')'] (.symbol "+.5") := by
  intro s
  have stop : ∀ c ∈ [')'].head?, isWordChar c = false := by
    rintro _ ⟨⟩
    decide
  have chars (word : List Char) (all : word.all isWordChar = true) : ∀ c ∈ word, isWordChar c = true :=
    List.all_eq_true.1 all
  have spelled : Decimal.Spells ⟨150, 2⟩ "1.50".toList :=
    @Decimal.Spells.fraction ['1'] ['5', '0'] nofun nofun (List.all_eq_true.1 (by decide))
  have number := (word_read_whole .allForms s rfl rfl "-1.50".toList [')'] nofun (chars _ (by decide)) stop).1
    _ (.negative spelled)
  have fault := (word_read_whole .allForms s rfl rfl "1x".toList [')'] nofun (chars _ (by decide)) stop).2.1
    (fun x denotes => nomatch (Number.ofChars?_eq_some_iff.2 denotes : Number.ofChars? ['1', 'x'] = some x))
    (.digit (by decide))
  have plain : ¬ Number.Begins "+.5".toList := fun begins => nomatch Number.looksNumeric_iff.2 begins
  obtain ⟨form, names, symbol⟩ :=
    (word_read_whole .allForms s rfl rfl "+.5".toList [')'] nofun (chars _ (by decide)) stop).2.2 plain
  cases names with
  | symbol => exact ⟨rfl, number, fault, symbol⟩

end Reader

end AnnotatedLisp
