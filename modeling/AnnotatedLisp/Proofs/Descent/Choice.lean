import AnnotatedLisp.Proofs.Descent.Rules
import Mathlib.Data.List.TakeWhile

/-!
Which rule reads a text.

A sequence of rules refuses what the first refuses, and a choice reads what its first rule reads. If this one
rejects the text the choice is as the second rule.
-/

namespace AnnotatedLisp

namespace Reader

namespace Rule

variable {α β : Type} {rule first second : Rule α} {text : List Char}

theorem bind_apply (rule : Rule α) (next : α → Rule β) (text : List Char) :
    (rule >>= next) text = rule text >>= fun read => next read.1 read.2 := rfl

theorem bind_of_ok {next : α → Rule β} {read : α} {rest : List Char} (h : rule text = .ok (read, rest)) :
    (rule >>= next) text = next read rest := by
  rw [bind_apply, h]
  rfl

theorem bind_of_error {next : α → Rule β} {refusal : Refusal} (h : rule text = .error refusal) :
    (rule >>= next) text = .error refusal := by
  rw [bind_apply, h]
  rfl

theorem ok_of_bind {next : α → Rule β} {read : β × List Char} (h : (rule >>= next) text = .ok read) :
    ∃ a rest, rule text = .ok (a, rest) ∧ next a rest = .ok read := by
  cases first : rule text with
  | error refusal =>
      rw [bind_of_error first] at h
      cases h
  | ok read' => exact ⟨read'.1, read'.2, rfl, (bind_of_ok first).symm.trans h⟩

theorem either_of_ok {read : α × List Char} (h : first text = .ok read) :
    first.either second text = .ok read := by
  rw [either, h]

theorem either_of_final {refusal : Refusal} (h : first text = .error refusal)
    (final : refusal.final = true) : first.either second text = .error refusal := by
  rw [either, h]
  exact if_pos final

theorem ok_of_either {read : α × List Char} (h : first.either second text = .ok read) :
    first text = .ok read ∨ second text = .ok read := by
  unfold either at h
  split at h
  next read' => exact .inl (read'.trans h)
  · split at h
    · cases h
    · exact .inr h

/-- The rule refuses the text, but other rules may be tried. -/
def Rejects (rule : Rule α) (text : List Char) : Prop :=
  ∃ refusal, rule text = .error refusal ∧ refusal.final = false

theorem either_of_rejects (h : first.Rejects text) : first.either second text = second text := by
  obtain ⟨refusal, refused, final⟩ := h
  rw [either, refused]
  exact if_neg (Bool.eq_false_iff.1 final)

theorem Rejects.bind (h : rule.Rejects text) (next : α → Rule β) : Rejects (rule >>= next) text := by
  obtain ⟨refusal, refused, final⟩ := h
  exact ⟨refusal, bind_of_error refused, final⟩

theorem Rejects.either (h : first.Rejects text) (h' : second.Rejects text) :
    (first.either second).Rejects text := by
  rw [Rejects, either_of_rejects h]
  exact h'

theorem cut_of_ok {read : α × List Char} (h : rule text = .ok read) : rule.cut text = .ok read := by
  rw [cut, h]

theorem cut_of_error {refusal : Refusal} (h : rule text = .error refusal) :
    rule.cut text = .error { refusal with final := true } := by
  rw [cut, h]

theorem optional_of_ok {read : α} {rest : List Char} (h : rule text = .ok (read, rest)) :
    rule.optional text = .ok ((), rest) :=
  either_of_ok (bind_of_ok h)

theorem optional_of_rejects (h : rule.Rejects text) : rule.optional text = .ok ((), text) :=
  either_of_rejects (h.bind _)

theorem ok_of_optional {rest : List Char} (h : rule.optional text = .ok ((), rest)) :
    (∃ read, rule text = .ok (read, rest)) ∨ rest = text := by
  obtain h | h := ok_of_either h
  · obtain ⟨read, rest', read', left⟩ := ok_of_bind h
    cases left
    exact .inl ⟨read, read'⟩
  · cases h
    exact .inr rfl

theorem recognized_of_ok {chars rest : List Char} {read : α} (h : rule (chars ++ rest) = .ok (read, rest)) :
    rule.recognized (chars ++ rest) = .ok (chars, rest) := by
  simp [recognized, h]

theorem ok_of_recognized {chars rest : List Char} (h : rule.recognized text = .ok (chars, rest)) :
    ∃ read, rule text = .ok (read, rest) ∧ chars = text.take (text.length - rest.length) := by
  unfold recognized at h
  split at h
  next read rest' read' =>
    cases h
    exact ⟨read, read', rfl⟩
  · cases h

section Characters

theorem char_self (c : Char) (text : List Char) : char c (c :: text) = .ok ((), text) :=
  if_pos rfl

theorem char_eq_error {c : Char} (differs : ∀ d ∈ text.head?, d ≠ c) :
    char c text = .error ⟨false, .mismatch, text⟩ := by
  cases text with
  | nil => rfl
  | cons d rest => exact if_neg (differs d rfl)

theorem rejects_char {c : Char} (differs : ∀ d ∈ text.head?, d ≠ c) : (char c).Rejects text :=
  ⟨_, char_eq_error differs, rfl⟩

theorem rejects_tag {c : Char} (differs : ∀ d ∈ text.head?, d ≠ c) (word : List Char) :
    (tag (c :: word)).Rejects text := by
  refine ⟨⟨false, .mismatch, text⟩, if_neg ?_, rfl⟩
  cases text with
  | nil => exact Bool.false_ne_true
  | cons d rest => simp [(differs d rfl).symm]

theorem ok_of_char {c : Char} {rest : List Char} (h : char c text = .ok ((), rest)) :
    text = c :: rest := by
  unfold char at h
  split at h
  · cases h
  · split at h
    next same =>
      cases h
      rw [same]
    · cases h

variable {p : Char → Bool}

theorem ok_of_span {chars rest : List Char} (h : span p text = .ok (chars, rest)) :
    chars ≠ [] ∧ (∀ c ∈ chars, p c = true) ∧ chars ++ rest = text := by
  unfold span at h
  split at h
  · cases h
  next inhabited =>
    cases h
    exact ⟨by simpa using inhabited, fun _ => List.mem_takeWhile_imp, List.takeWhile_append_dropWhile⟩

/-- The characters of a class end in front of the first that is not of it. -/
theorem takeWhile_of_stop {chars rest : List Char} (all : ∀ c ∈ chars, p c = true)
    (stop : ∀ c ∈ rest.head?, p c = false) : (chars ++ rest).takeWhile p = chars := by
  rw [List.takeWhile_append_of_pos all]
  cases rest with
  | nil => simp
  | cons c rest => simp [stop c rfl]

theorem exists_split (p : Char → Bool) (text : List Char) : ∃ chars rest, chars ++ rest = text ∧
    (∀ c ∈ chars, p c = true) ∧ ∀ c ∈ rest.head?, p c = false := by
  refine ⟨text.takeWhile p, text.dropWhile p, List.takeWhile_append_dropWhile,
    fun _ => List.mem_takeWhile_imp, fun c mem => ?_⟩
  have stopped := List.head?_dropWhile_not p text
  rw [Option.mem_def.1 mem] at stopped
  exact stopped

theorem span_of_stop {chars rest : List Char} (inhabited : chars ≠ []) (all : ∀ c ∈ chars, p c = true)
    (stop : ∀ c ∈ rest.head?, p c = false) : span p (chars ++ rest) = .ok (chars, rest) := by
  have taken := takeWhile_of_stop all stop
  have split := List.takeWhile_append_dropWhile (p := p) (l := chars ++ rest)
  rw [taken, List.append_cancel_left_eq] at split
  rw [span, taken, split, if_neg (by simpa using inhabited)]

theorem span_eq_error (stop : ∀ c ∈ text.head?, p c = false) :
    span p text = .error ⟨false, .mismatch, text⟩ := by
  cases text with
  | nil => rfl
  | cons c rest =>
      rw [span, List.takeWhile_cons_of_neg (by simp [stop c rfl])]
      rfl

theorem rejects_span (stop : ∀ c ∈ text.head?, p c = false) : (span p).Rejects text :=
  ⟨_, span_eq_error stop, rfl⟩

end Characters

section Open

/-- The rule never refuses a text for good. -/
def Open (rule : Rule α) : Prop :=
  ∀ text refusal, rule text = .error refusal → refusal.final = false

/-- Such a rule rejects what it does not read. -/
theorem Open.reads_or_rejects (h : rule.Open) (text : List Char) :
    (∃ read rest, rule text = .ok (read, rest)) ∨ rule.Rejects text := by
  cases read : rule text with
  | ok read' => exact .inl ⟨read'.1, read'.2, rfl⟩
  | error refusal => exact .inr ⟨refusal, read, h text refusal read⟩

theorem open_pure (a : α) : Open (pure a : Rule α) :=
  fun _ _ h => nomatch h

theorem Open.bind {next : α → Rule β} (h : rule.Open) (h' : ∀ a, (next a).Open) :
    Open (rule >>= next) := by
  intro text refusal refused
  obtain ⟨read, rest, read'⟩ | ⟨refusal', refused', final⟩ := h.reads_or_rejects text
  · rw [bind_of_ok read'] at refused
    exact h' read rest refusal refused
  · rw [bind_of_error refused'] at refused
    exact Except.error.inj refused ▸ final

theorem Open.either (h : first.Open) (h' : second.Open) : (first.either second).Open := by
  intro text refusal refused
  obtain ⟨read, rest, read'⟩ | rejected := h.reads_or_rejects text
  · rw [either_of_ok read'] at refused
    cases refused
  · rw [either_of_rejects rejected] at refused
    exact h' text refusal refused

theorem Open.optional (h : rule.Open) : rule.optional.Open :=
  (h.bind fun _ => open_pure ()).either (open_pure ())

theorem Open.recognized (h : rule.Open) : rule.recognized.Open := by
  intro text refusal refused
  obtain ⟨read, rest, read'⟩ | ⟨refusal', refused', final⟩ := h.reads_or_rejects text
  · rw [Rule.recognized, read'] at refused
    cases refused
  · rw [Rule.recognized, refused'] at refused
    exact Except.error.inj refused ▸ final

theorem Open.interpreted (h : rule.Open) (meaning : α → List Char → Option β) :
    (rule.interpreted meaning).Open := by
  intro text refusal refused
  obtain ⟨read, rest, read'⟩ | ⟨refusal', refused', final⟩ := h.reads_or_rejects text
  · rw [Rule.interpreted, read'] at refused
    dsimp only at refused
    split at refused
    · cases refused
    · exact Except.error.inj refused ▸ rfl
  · rw [Rule.interpreted, refused'] at refused
    exact Except.error.inj refused ▸ final

theorem open_char (c : Char) : (char c).Open := by
  intro text refusal refused
  unfold char at refused
  split at refused
  · exact Except.error.inj refused ▸ rfl
  · split at refused
    · cases refused
    · exact Except.error.inj refused ▸ rfl

theorem open_span (p : Char → Bool) : (span p).Open := by
  intro text refusal refused
  unfold span at refused
  split at refused
  · exact Except.error.inj refused ▸ rfl
  · cases refused

end Open

end Rule

end Reader

end AnnotatedLisp
