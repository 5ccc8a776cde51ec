import AnnotatedLisp.Proofs.Descent.Gaps
import AnnotatedLisp.Proofs.Reader.Word

/-!
The rules for tokens, and reading character by character.

Where a rule reads a form, reading the characters that it uses gives that form; where it refuses the text for
good, reading fails at the same place with the same cause. A text that no token begins with is only rejected:
reading fails at its front as well, unless a closing bracket stands there.
-/

namespace AnnotatedLisp

namespace Decimal

variable {d : Decimal} {text : List Char}

theorem Spells.exists_digit (h : d.Spells text) : ∃ c rest, text = c :: rest ∧ isDigit c = true := by
  have read := ofText?_eq_some_iff.2 h
  cases text with
  | nil => cases read
  | cons c rest => exact ⟨c, rest, rfl, Token.isDigit_of_ofText? read⟩

theorem Spells.isWordChar (h : d.Spells text) : ∀ c ∈ text, Token.isWordChar c = true := by
  intro c mem
  cases h with
  | whole inhabited all => exact Token.isWordChar_of_isDigit (all c mem)
  | fraction inhabited inhabited' all =>
      obtain mem | mem := List.mem_append.1 mem
      · exact Token.isWordChar_of_isDigit (all c (List.mem_append_left _ mem))
      · obtain rfl | mem := List.mem_cons.1 mem
        · decide
        · exact Token.isWordChar_of_isDigit (all c (List.mem_append_right _ mem))

end Decimal

theorem Number.Denotes.isWordChar {x : Float} {text : List Char} (h : Denotes text x) :
    ∀ c ∈ text, Token.isWordChar c = true := by
  cases h with
  | unsigned spells => exact spells.isWordChar
  | positive spells => exact List.forall_mem_cons.2 ⟨by decide, spells.isWordChar⟩
  | negative spells => exact List.forall_mem_cons.2 ⟨by decide, spells.isWordChar⟩

namespace Reader

open Rule Descent

section Number

variable {text spelled rest : List Char} {d : Decimal} {x : Float}

/-- Behind a number no word goes on. -/
theorem isDigit_eq_false {c : Char} (h : Token.isWordChar c = false) : Decimal.isDigit c = false :=
  Bool.eq_false_iff.2 fun digit => Bool.eq_false_iff.1 h (Token.isWordChar_of_isDigit digit)

theorem decimal_of_spells (spells : d.Spells spelled) (stop : ∀ c ∈ rest.head?, Token.isWordChar c = false) :
    decimal (spelled ++ rest) = .ok ((), rest) := by
  have noDigit : ∀ c ∈ rest.head?, Decimal.isDigit c = false := fun c mem => isDigit_eq_false (stop c mem)
  cases spells with
  | whole inhabited all =>
      have noPoint : ∀ c ∈ rest.head?, c ≠ '.' := by
        rintro c mem rfl
        exact absurd (stop _ mem) (by decide)
      rw [decimal, bind_of_ok (span_of_stop inhabited all noDigit)]
      exact optional_of_rejects ((rejects_char noPoint).bind _)
  | @fraction whole places inhabited inhabited' all =>
      obtain ⟨whole', places'⟩ := List.forall_mem_append.1 all
      have point : ∀ c ∈ ('.' :: (places ++ rest)).head?, Decimal.isDigit c = false := by
        rintro _ ⟨⟩
        decide
      rw [decimal, List.append_assoc]
      refine (bind_of_ok (span_of_stop inhabited whole' point)).trans ?_
      exact optional_of_ok ((bind_of_ok (char_self '.' _)).trans (span_of_stop inhabited' places' noDigit))

/-- What is read as a decimal spells one. -/
theorem spells_of_decimal (h : decimal text = .ok ((), rest)) :
    ∃ spelled d, Decimal.Spells d spelled ∧ spelled ++ rest = text := by
  rw [decimal] at h
  obtain ⟨whole, behind, read, continued⟩ := ok_of_bind h
  obtain ⟨inhabited, all, rfl⟩ := ok_of_span read
  obtain ⟨places, fraction⟩ | rfl := ok_of_optional continued
  · obtain ⟨_, behind', point, read'⟩ := ok_of_bind fraction
    obtain rfl := ok_of_char point
    obtain ⟨inhabited', all', rfl⟩ := ok_of_span read'
    exact ⟨_, _, .fraction inhabited inhabited' (List.forall_mem_append.2 ⟨all, all'⟩), by simp⟩
  · exact ⟨whole, _, .whole inhabited all, rfl⟩

theorem sign_of_other (other : ∀ c ∈ text.head?, c ≠ '-' ∧ c ≠ '+') : sign text = .ok ((), text) :=
  optional_of_rejects ((rejects_char fun c mem => (other c mem).1).either
    (rejects_char fun c mem => (other c mem).2))

theorem numeral_of_denotes (denotes : Number.Denotes spelled x)
    (stop : ∀ c ∈ rest.head?, Token.isWordChar c = false) :
    numeral (spelled ++ rest) = .ok (spelled, rest) := by
  refine @recognized_of_ok _ _ _ _ () ?_
  cases denotes with
  | unsigned spells =>
      have noSign : ∀ c ∈ (spelled ++ rest).head?, c ≠ '-' ∧ c ≠ '+' := by
        obtain ⟨c, others, rfl, digit⟩ := spells.exists_digit
        rintro _ ⟨⟩
        constructor <;>
        · rintro rfl
          exact absurd digit (by decide)
      rw [bind_of_ok (sign_of_other noSign)]
      exact decimal_of_spells spells stop
  | positive spells => exact decimal_of_spells spells stop
  | negative spells => exact decimal_of_spells spells stop

theorem ok_of_sign (h : sign text = .ok ((), rest)) :
    text = '-' :: rest ∨ text = '+' :: rest ∨ text = rest := by
  obtain ⟨_, signed⟩ | rfl := ok_of_optional h
  · obtain minus | plus := ok_of_either signed
    · exact .inl (ok_of_char minus)
    · exact .inr (.inl (ok_of_char plus))
  · exact .inr (.inr rfl)

theorem denotes_of_numeral (h : numeral text = .ok (spelled, rest)) :
    ∃ x, Number.Denotes spelled x ∧ spelled ++ rest = text := by
  obtain ⟨_, read, rfl⟩ := ok_of_recognized h
  obtain ⟨_, unsigned, signed, read'⟩ := ok_of_bind read
  obtain ⟨digits, d, spells, rfl⟩ := spells_of_decimal read'
  obtain ⟨spelled, x, denotes, rfl⟩ : ∃ spelled x, Number.Denotes spelled x ∧ text = spelled ++ rest := by
    obtain rfl | rfl | rfl := ok_of_sign signed
    · exact ⟨_, _, .negative spells, rfl⟩
    · exact ⟨_, _, .positive spells, rfl⟩
    · exact ⟨_, _, .unsigned spells, rfl⟩
  have taken : (spelled ++ rest).take ((spelled ++ rest).length - rest.length) = spelled := by simp
  exact ⟨x, taken.symm ▸ denotes, by rw [taken]⟩

theorem open_number : number.Open := by
  have sign : sign.Open := ((open_char '-').either (open_char '+')).optional
  have fraction : (optional do char '.'; span Decimal.isDigit).Open :=
    ((open_char '.').bind fun _ => open_span _).optional
  exact (sign.bind fun _ => (open_span _).bind fun _ => fraction).recognized.interpreted _

/-- A run of word characters is read as the number that it spells. -/
theorem number_of_denotes (denotes : Number.Denotes spelled x)
    (stop : ∀ c ∈ rest.head?, Token.isWordChar c = false) :
    number (spelled ++ rest) = .ok (.number x, rest) := by
  have last : rest.head?.any Token.isWordChar = false := by
    cases rest with
    | nil => rfl
    | cons c rest => exact stop c rfl
  rw [number, interpreted, numeral_of_denotes denotes stop]
  simp only [last, Number.ofChars?_eq_some_iff.2 denotes]
  rfl

/-- No part of a run of word characters is read as a number. -/
theorem rejects_number {word : List Char} (chars : ∀ c ∈ word, Token.isWordChar c = true)
    (stop : ∀ c ∈ rest.head?, Token.isWordChar c = false) (h : Number.ofChars? word = none) :
    number.Rejects (word ++ rest) := by
  refine (open_number.reads_or_rejects _).resolve_left ?_
  rintro ⟨form, rest', read⟩
  unfold number interpreted at read
  split at read
  next spelled behind read' =>
    obtain ⟨x, denotes, split⟩ := denotes_of_numeral read'
    dsimp only at read
    split at read
    next meant =>
      have stop' : ∀ c ∈ behind.head?, Token.isWordChar c = false := by
        intro c mem
        rw [Option.mem_def] at mem
        simp_all
      obtain rfl : spelled = word := by
        rw [← takeWhile_of_stop denotes.isWordChar stop', split, takeWhile_of_stop chars stop]
      rw [Number.ofChars?_eq_some_iff.2 denotes] at h
      cases h
    · cases read
  · cases read

end Number

/-- Reading on from a state ends as the rule does, which reads a form or refuses the text for good. -/
inductive Settles (extent : Extent) (s : State) (text : List Char) :
    Except Refusal (Datum × List Char) → Prop
  | read {form : Datum} (used : List Char) {rest : List Char} (split : used ++ rest = text)
      (scanned : scanFrom extent s text = scanFrom extent ((s.skip used.length).give form) rest) :
      Settles extent s text (.ok (form, rest))
  | failed {refusal : Refusal} (used : List Char) (final : refusal.final = true)
      (split : used ++ refusal.rest = text)
      (scanned : scanFrom extent s text = .error ⟨refusal.cause, s.offset + used.length⟩) :
      Settles extent s text (.error refusal)

/-- The characters that close a compound form. -/
def closers : List Char :=
  [')', ']', '\x7d']

theorem close?_of_other {c : Char} (other : c ∉ closers) (level : Level) : State.close? c level = none := by
  simp only [closers, List.mem_cons, not_or] at other
  unfold State.close?
  split <;> simp_all

/-- The characters that a compound form begins with. -/
def openers : List Char :=
  ['(', '[', '\x7b', '\x27', '\x60', '~']

/-- Besides, the rule may reject a text that no form begins with. -/
inductive Follows (extent : Extent) (s : State) (text : List Char) :
    Except Refusal (Datum × List Char) → Prop
  | settled {outcome : Except Refusal (Datum × List Char)} (settles : Settles extent s text outcome) :
      Follows extent s text outcome
  | rejected (stuck : ∀ c ∈ text.head?, c ∉ closers →
        scanFrom extent s text = .error ⟨.unexpected, s.offset⟩) :
      Follows extent s text (.error ⟨false, .mismatch, text⟩)

variable {extent : Extent} {s t : State} {text word rest : List Char} {c : Char}
  {outcome : Except Refusal (Datum × List Char)}

namespace Settles

theorem either {first second : Rule Datum} (h : Settles extent s text (first text)) :
    Settles extent s text (first.either second text) := by
  generalize read : first text = outcome at h
  cases h with
  | read used split scanned =>
      rw [either_of_ok read]
      exact .read used split scanned
  | failed used final split scanned =>
      rw [either_of_final read final]
      exact .failed used final split scanned

/-- What a rule does behind characters that only move the place on. -/
theorem prepend (before : List Char) (h : Settles extent t text outcome)
    (moved : scanFrom extent s (before ++ text) = scanFrom extent t text)
    (offset : t.offset = s.offset + before.length) (levels : t.levels = s.levels)
    (forms : t.forms = s.forms) : Settles extent s (before ++ text) outcome := by
  cases h with
  | @read form used rest split scanned =>
      have given : (t.skip used.length).give form = (s.skip (before ++ used).length).give form := by
        simp only [State.give, State.skip, offset, levels, forms, List.length_append, Nat.add_assoc]
      exact .read (before ++ used) (by rw [List.append_assoc, split]) (by rw [moved, scanned, given])
  | @failed refusal used final split scanned =>
      refine .failed (before ++ used) final (by rw [List.append_assoc, split]) ?_
      rw [moved, scanned, offset, List.length_append, Nat.add_assoc]

end Settles

/-- Inside a string literal both go on to its end. -/
theorem settles_stringRest {chars : List Char} (here : s.mode = .string chars) :
    Settles extent s text (stringRest chars text) := by
  have stepped {s : State} (chars : List Char) (here : s.mode = .string chars) :
      s.step extent '\\' = .ok { s.skip 1 with mode := .escape s.offset chars } := by
    simp only [State.step, here]
    rfl
  fun_induction stringRest chars text generalizing s with
  | case1 chars =>
      refine .failed [] rfl rfl ?_
      rw [scanFrom_nil]
      simp only [State.finish, State.settle, here]
      rfl
  | case2 chars rest =>
      refine .read ['"'] rfl (scanFrom_of_step ?_ rest)
      simp only [State.step, here]
      rfl
  | case3 chars =>
      refine .failed ['\\'] rfl rfl ?_
      rw [scanFrom_of_step (stepped chars here), scanFrom_nil]
      rfl
  | case4 chars d rest meant unescaped quote ih =>
      have moved : scanFrom extent s ('\\' :: d :: rest) =
          scanFrom extent { s.skip 2 with mode := .string (meant :: chars) } rest := by
        rw [scanFrom_of_step (stepped chars here)]
        refine scanFrom_of_step ?_ rest
        simp only [State.step, unescaped]
        rfl
      exact (ih rfl).prepend ['\\', d] moved rfl rfl rfl
  | case5 chars d rest unknown =>
      refine .failed [] rfl rfl ?_
      rw [scanFrom_of_step (stepped chars here)]
      refine scanFrom_of_stepError ?_ rest
      simp only [State.step, unknown]
      rfl
  | case6 chars c rest quote backslash ih =>
      have stepped : s.step extent c = .ok { s.skip 1 with mode := .string (c :: chars) } := by
        simp only [State.step, here, quote, backslash]
        rfl
      exact (ih rfl).prepend [c] (scanFrom_of_step stepped rest) rfl rfl rfl

section Token

theorem rejects_string (noQuote : ∀ c ∈ text.head?, c ≠ '"') : string.Rejects text :=
  (rejects_char noQuote).bind _

theorem rejects_keyword (noColon : ∀ c ∈ text.head?, c ≠ ':') : keyword.Rejects text :=
  (rejects_char noColon).bind _

/-- No number begins with what is no word character. -/
theorem rejects_number_of_other (other : ∀ c ∈ text.head?, Token.isWordChar c = false) :
    number.Rejects text :=
  @rejects_number _ [] nofun other rfl

theorem symbol_of_other (other : ∀ c ∈ text.head?, Token.isWordChar c = false) :
    symbol text = .error ⟨false, .mismatch, text⟩ := by
  rw [symbol, interpreted, span_eq_error other]

variable (blank : s.mode = .blank) (unfinished : s.isComplete extent = false)

include blank unfinished

/-- A word is read as a whole, or it is rejected. -/
theorem follows_word (inhabited : word ≠ []) (chars : ∀ c ∈ word, Token.isWordChar c = true)
    (stop : ∀ c ∈ rest.head?, Token.isWordChar c = false) :
    Follows extent s (word ++ rest) (token (word ++ rest)) := by
  have reads {form : Datum} (h : Token.ofWord? word = some form) :
      Follows extent s (word ++ rest) (.ok (form, rest)) :=
    .settled (.read word rfl (readsAs_of_ofWord? blank unfinished inhabited chars stop h))
  cases number? : Number.ofChars? word with
  | some x =>
      rw [token, either_of_ok (number_of_denotes (Number.ofChars?_eq_some_iff.1 number?) stop)]
      exact reads (by rw [Token.ofWord?, number?])
  | none =>
      have first : ∀ {d : Char}, Token.isWordChar d = false → ∀ c ∈ (word ++ rest).head?, c ≠ d := by
        intro d other c mem
        obtain ⟨c', word, rfl⟩ := List.exists_cons_of_ne_nil inhabited
        rintro rfl
        cases mem
        exact absurd (chars _ List.mem_cons_self) (Bool.eq_false_iff.1 other)
      rw [token, either_of_rejects (rejects_number chars stop number?),
        either_of_rejects (rejects_string (first (by decide))),
        either_of_rejects (rejects_keyword (first (by decide))), symbol, interpreted,
        span_of_stop inhabited chars stop]
      dsimp only
      cases numeric : Number.looksNumeric word with
      | true =>
          refine .rejected fun _ _ _ => scanFrom_fault blank unfinished inhabited chars stop ?_
          rw [Token.ofWord?, number?]
          exact if_pos numeric
      | false =>
          refine reads ?_
          rw [Token.ofWord?, number?, numeric]
          rfl

/-- A keyword has at least one character behind its colon. -/
theorem follows_keyword (text : List Char) : Follows extent s (':' :: text) (token (':' :: text)) := by
  have stepped : s.step extent ':' = .ok { s.skip 1 with mode := .keyword s.offset [] } :=
    step_of_blank blank unfinished (by decide) (by decide)
  have other : ∀ c ∈ (':' :: text).head?, Token.isWordChar c = false := by
    rintro _ ⟨⟩
    decide
  rw [token, either_of_rejects (rejects_number_of_other other),
    either_of_rejects (rejects_string (by rintro _ ⟨⟩; decide))]
  obtain ⟨word, rest, rfl, chars, stop⟩ := exists_split Token.isWordChar text
  by_cases inhabited : word = []
  · subst inhabited
    rw [List.nil_append] at other ⊢
    have rejects : keyword.Rejects (':' :: rest) := by
      obtain ⟨refusal, refused, final⟩ := rejects_span stop
      exact ⟨refusal, (bind_of_ok (char_self ':' rest)).trans (bind_of_error refused), final⟩
    rw [either_of_rejects rejects, symbol_of_other other]
    refine .rejected fun _ _ _ => ?_
    rw [scanFrom_of_step stepped]
    cases rest with
    | nil => rfl
    | cons c rest =>
        refine scanFrom_of_stepError ?_ rest
        simp only [State.step, stop c rfl]
        rfl
  · have isWord : Token.IsWord (String.ofList word) := by
      refine ⟨fun empty => inhabited ?_, by rwa [String.toList_ofList]⟩
      rw [← String.toList_ofList (l := word), empty]
      rfl
    have read : keyword (':' :: (word ++ rest)) = .ok (.keyword (String.ofList word), rest) := by
      rw [keyword, bind_of_ok (char_self ':' _), bind_of_ok (span_of_stop inhabited chars stop)]
      rfl
    have leads := leads_keyword blank unfinished isWord
    rw [String.toList_ofList] at leads
    rw [either_of_ok read]
    exact .settled (.read (':' :: word) rfl (leads.scanFrom stop))

/-- A string is read to its closing quote. -/
theorem settles_string (text : List Char) : Settles extent s ('"' :: text) (token ('"' :: text)) := by
  have other : ∀ c ∈ ('"' :: text).head?, Token.isWordChar c = false := by
    rintro _ ⟨⟩
    decide
  have stepped : s.step extent '"' = .ok { s.skip 1 with mode := .string [] } :=
    step_of_blank blank unfinished (by decide) (by decide)
  rw [token, either_of_rejects (rejects_number_of_other other)]
  refine Settles.either ?_
  rw [string, bind_of_ok (char_self '"' text)]
  exact (settles_stringRest rfl).prepend ['"'] (scanFrom_of_step stepped text) rfl rfl rfl

/-- Where nothing begins that is open or could be closed, there is a fault. -/
theorem scanFrom_stuck (bare : Bare (c :: text)) (word : Token.isWordChar c = false) (noOpener : c ∉ openers)
    (noQuote : c ≠ '"') (noColon : c ≠ ':')
    (stays : ∀ level ∈ s.levels.head?, State.close? c level = none) :
    scanFrom extent s (c :: text) = .error ⟨.unexpected, s.offset⟩ := by
  by_cases semicolon : c = ';'
  · subst semicolon
    rw [bare.misplaced blank, State.misplaced, if_neg (by simp [unfinished])]
  · have differs : ∀ d ∈ openers, c ≠ d := by
      rintro d mem rfl
      exact noOpener mem
    refine scanFrom_of_stepError ?_ text
    rw [step_of_blank blank unfinished bare.not_separator semicolon,
      State.stepToken.eq_9 s c (differs _ (by decide)) (differs _ (by decide)) (differs _ (by decide))
        (differs _ (by decide)) (differs _ (by decide)) (differs _ (by decide)) noQuote noColon,
      if_neg (by simp [word])]
    split
    · rfl
    next level levels inside => rw [stays level (by rw [inside]; rfl)]

theorem follows_token (bare : Bare (c :: text)) (noOpener : c ∉ openers) :
    Follows extent s (c :: text) (token (c :: text)) := by
  cases first : Token.isWordChar c with
  | true =>
      obtain ⟨word, rest, split, chars, stop⟩ := exists_split Token.isWordChar text
      rw [← split, ← List.cons_append]
      exact follows_word blank unfinished nofun (List.forall_mem_cons.2 ⟨first, chars⟩) stop
  | false =>
      by_cases quote : c = '"'
      · exact quote ▸ .settled (settles_string blank unfinished text)
      by_cases colon : c = ':'
      · exact colon ▸ follows_keyword blank unfinished text
      have other : ∀ d ∈ (c :: text).head?, Token.isWordChar d = false := by
        rintro _ ⟨⟩
        exact first
      rw [token, either_of_rejects (rejects_number_of_other other),
        either_of_rejects (rejects_string (by rintro _ ⟨⟩; exact quote)),
        either_of_rejects (rejects_keyword (by rintro _ ⟨⟩; exact colon)), symbol_of_other other]
      refine .rejected ?_
      rintro _ ⟨⟩ noCloser
      exact scanFrom_stuck blank unfinished bare first noOpener quote colon fun level _ =>
        close?_of_other noCloser level

end Token

end Reader

end AnnotatedLisp
