import AnnotatedLisp.Proofs.Descent.Progress
import AnnotatedLisp.Proofs.Reader.Printed

/-!
Separators and comments between tokens.

They are passed over by the rules as they are character by character. What is left behind them has neither at its
front. A comment in which a carriage return stands alone is none, and its semicolon belongs to no token.
-/

namespace AnnotatedLisp

namespace Reader

open Rule Descent

variable {extent : Extent} {s : State} {text rest : List Char} {c : Char}

theorem scanFrom_nil (s : State) : scanFrom extent s [] = s.finish extent := rfl

theorem scanFrom_cons (s : State) (c : Char) (text : List Char) :
    scanFrom extent s (c :: text) = s.step extent c >>= fun t => scanFrom extent t text := by
  rw [scanFrom, run_cons, bind_assoc]
  rfl

theorem scanFrom_of_step {t : State} (h : s.step extent c = .ok t) (text : List Char) :
    scanFrom extent s (c :: text) = scanFrom extent t text := by
  rw [scanFrom_cons, h]
  rfl

theorem scanFrom_of_stepError {fault : Fault} (h : s.step extent c = .error fault) (text : List Char) :
    scanFrom extent s (c :: text) = .error fault := by
  rw [scanFrom_cons, h]
  rfl

/-- Separators are passed over. -/
theorem scanFrom_separators (blank : s.mode = .blank) {separators : List Char}
    (separates : ∀ c ∈ separators, Token.isSeparator c = true) (text : List Char) :
    scanFrom extent s (separators ++ text) = scanFrom extent (s.skip separators.length) text := by
  induction separators generalizing s with
  | nil => rfl
  | cons c separators ih =>
      obtain ⟨first, others⟩ := List.forall_mem_cons.1 separates
      have stepped : s.step extent c = .ok (s.skip 1) := by
        simp only [State.step, blank, State.stepBlank, first]
        rfl
      rw [List.cons_append, scanFrom_of_step stepped, ih (s := s.skip 1) blank others, State.skip_skip,
        List.length_cons, Nat.add_comm 1]

section Comments

variable {start : Nat}

/-- Where a line ends. -/
inductive LineEnd : List Char → Prop
  | text : LineEnd []
  | feed (rest : List Char) : LineEnd ('\n' :: rest)
  | returned (rest : List Char) : LineEnd ('\r' :: '\n' :: rest)

/-- The characters of a comment are passed over up to the end of its line. -/
theorem scanFrom_comment (here : s.mode = .comment start) {line : List Char}
    (calm : ∀ c ∈ line, c ≠ '\n' ∧ c ≠ '\r') (text : List Char) :
    scanFrom extent s (line ++ text) = scanFrom extent (s.skip line.length) text := by
  induction line generalizing s with
  | nil => rfl
  | cons c line ih =>
      obtain ⟨⟨noFeed, noReturn⟩, others⟩ := List.forall_mem_cons.1 calm
      have stepped : s.step extent c = .ok (s.skip 1) := by
        simp only [State.step, here, noFeed, noReturn]
        rfl
      rw [List.cons_append, scanFrom_of_step stepped, ih (s := s.skip 1) here others, State.skip_skip,
        List.length_cons, Nat.add_comm 1]

/-- At the end of its line a comment is over. -/
theorem scanFrom_lineEnd (here : s.mode = .comment start) (ends : LineEnd text) :
    scanFrom extent s text = scanFrom extent { s with mode := .blank } text := by
  obtain ⟨offset, mode, levels, forms⟩ := s
  obtain rfl : mode = .comment start := here
  cases ends with
  | text => rfl
  | feed rest => rfl
  | returned rest => rfl

/-- A comment in which a carriage return is not followed by a line feed is misplaced. -/
theorem scanFrom_stray (here : s.mode = .comment start) (stray : text.head? ≠ some '\n') :
    scanFrom extent s ('\r' :: text) = .error (s.misplaced extent start) := by
  have stepped : s.step extent '\r' = .ok { s.skip 1 with mode := .commentReturn start } := by
    simp only [State.step, here]
    rfl
  rw [scanFrom_of_step stepped]
  cases text with
  | nil => rfl
  | cons c text =>
      have differs : c ≠ '\n' := fun same => stray (congrArg some same)
      exact scanFrom_of_stepError (by simp only [State.step, differs]; rfl) text

/-- A line ends at a line feed, with or without a carriage return in front of it, or where the text ends. It is
refused at any other carriage return. -/
theorem line_ends_or_strays (text : List Char) : ∃ before rest, before ++ rest = text ∧
    (∀ c ∈ before, c ≠ '\n' ∧ c ≠ '\r') ∧
      (LineEnd rest ∧ line text = .ok ((), rest) ∨
        ∃ after, rest = '\r' :: after ∧ after.head? ≠ some '\n' ∧
          line text = .error ⟨false, .mismatch, text⟩) := by
  have before : ∀ c ∈ text.takeWhile staysOnLine, c ≠ '\n' ∧ c ≠ '\r' := fun c mem => by
    simpa [staysOnLine] using List.mem_takeWhile_imp mem
  refine ⟨text.takeWhile staysOnLine, text.dropWhile staysOnLine, List.takeWhile_append_dropWhile, before, ?_⟩
  unfold line
  cases dropped : text.dropWhile staysOnLine with
  | nil => exact .inl ⟨.text, rfl⟩
  | cons c after =>
      have stopped : c = '\n' ∨ c = '\r' := by
        have := List.head?_dropWhile_not staysOnLine text
        rw [dropped] at this
        by_contra other
        simp_all [staysOnLine]
      rcases stopped with rfl | rfl
      · exact .inl ⟨.feed after, rfl⟩
      · by_cases fed : after.head? = some '\n'
        · obtain ⟨rest, rfl⟩ : ∃ rest, after = '\n' :: rest := List.head?_eq_some_iff.1 fed
          exact .inl ⟨.returned rest, rfl⟩
        · exact .inr ⟨after, rfl, fed, if_neg fed⟩

end Comments

section Gaps

theorem gap_of_separator (separates : Token.isSeparator c = true) (text : List Char) :
    gap (c :: text) = .ok ((), (c :: text).dropWhile Token.isSeparator) := by
  have read : separators (c :: text) = .ok ((), (c :: text).dropWhile Token.isSeparator) := by
    rw [separators, bind_apply, span, List.takeWhile_cons_of_pos separates]
    rfl
  rw [gap, either, read]

theorem rejects_separators (other : Token.isSeparator c = false) (text : List Char) :
    separators.Rejects (c :: text) :=
  (rejects_span (by rintro _ ⟨⟩; exact other)).bind _

theorem gap_semicolon (text : List Char) : gap (';' :: text) = line text := by
  rw [gap, either_of_rejects (rejects_separators (by decide) text), comment, bind_of_ok (char_self ';' text)]

theorem gap_of_other (other : Token.isSeparator c = false) (noComment : c ≠ ';') (text : List Char) :
    gap (c :: text) = .error ⟨false, .mismatch, c :: text⟩ := by
  rw [gap, either_of_rejects (rejects_separators other text), comment]
  exact bind_of_error (char_eq_error (by rintro _ ⟨⟩; exact noComment))

/-- There is neither a separator nor a whole comment at the front of the text. -/
def Bare (text : List Char) : Prop :=
  ∃ refusal, gap text = .error refusal

theorem open_line : line.Open := by
  intro text refusal refused
  unfold line at refused
  split at refused
  · split at refused
    · cases refused
    · exact Except.error.inj refused ▸ rfl
  · cases refused

theorem open_gap : gap.Open :=
  ((open_span _).bind fun _ => open_pure ()).either ((open_char ';').bind fun _ => open_line)

theorem scanFrom_semicolon (blank : s.mode = .blank) {before : List Char}
    (calm : ∀ c ∈ before, c ≠ '\n' ∧ c ≠ '\r') (text : List Char) :
    scanFrom extent s (';' :: (before ++ text)) =
      scanFrom extent { s.skip (before.length + 1) with mode := .comment s.offset } text := by
  have stepped : s.step extent ';' = .ok { s.skip 1 with mode := .comment s.offset } := by
    simp only [State.step, blank]
    rfl
  rw [scanFrom_of_step stepped, scanFrom_comment rfl calm]
  simp only [State.skip, Nat.add_assoc, Nat.add_comm 1]

/-- A gap is passed over where no token is open. -/
theorem exists_gap (h : gap text = .ok ((), rest)) : ∃ used, used ++ rest = text ∧
    ∀ {extent : Extent} {s : State}, s.mode = .blank →
      scanFrom extent s text = scanFrom extent (s.skip used.length) rest := by
  cases text with
  | nil => cases h
  | cons c text =>
      by_cases separates : Token.isSeparator c = true
      · rw [gap_of_separator separates] at h
        cases h
        have split := List.takeWhile_append_dropWhile (p := Token.isSeparator) (l := c :: text)
        refine ⟨_, split, fun blank => ?_⟩
        rw [← scanFrom_separators blank (fun _ => List.mem_takeWhile_imp), split]
      · rw [Bool.not_eq_true] at separates
        by_cases semicolon : c = ';'
        · subst semicolon
          rw [gap_semicolon] at h
          obtain ⟨before, left, split, calm, ⟨ends, read⟩ | ⟨_, _, _, refused⟩⟩ := line_ends_or_strays text
          · rw [read] at h
            cases h
            refine ⟨';' :: before, congrArg (';' :: ·) split, fun {extent s} blank => ?_⟩
            rw [← split, scanFrom_semicolon blank calm, scanFrom_lineEnd rfl ends]
            obtain ⟨offset, mode, levels, forms⟩ := s
            obtain rfl : mode = .blank := blank
            rfl
          · rw [refused] at h
            cases h
        · rw [gap_of_other separates semicolon] at h
          cases h

theorem Bare.not_separator (bare : Bare (c :: text)) : Token.isSeparator c = false := by
  obtain ⟨refusal, refused⟩ := bare
  rw [← Bool.not_eq_true]
  intro separates
  rw [gap_of_separator separates] at refused
  cases refused

/-- A semicolon that no whole comment begins with is misplaced. -/
theorem Bare.misplaced (bare : Bare (';' :: text)) (blank : s.mode = .blank) :
    scanFrom extent s (';' :: text) = .error (s.misplaced extent s.offset) := by
  obtain ⟨refusal, refused⟩ := bare
  rw [gap_semicolon] at refused
  obtain ⟨before, rest, rfl, calm, ⟨_, read⟩ | ⟨after, rfl, stray, _⟩⟩ := line_ends_or_strays text
  · rw [read] at refused
    cases refused
  · rw [scanFrom_semicolon blank calm]
    exact scanFrom_stray rfl stray

/-- What is left behind all gaps is bare, and reading comes to it without anything else having changed. -/
theorem exists_gaps (text : List Char) : ∃ used, used ++ afterGaps text = text ∧ Bare (afterGaps text) ∧
    ∀ {extent : Extent} {s : State}, s.mode = .blank →
      scanFrom extent s text = scanFrom extent (s.skip used.length) (afterGaps text) := by
  have passed : ∃ gaps rest used, many gap text = .ok (gaps, rest) ∧ used ++ rest = text ∧ Bare rest ∧
      ∀ {extent : Extent} {s : State}, s.mode = .blank →
        scanFrom extent s text = scanFrom extent (s.skip used.length) rest := by
    fun_induction many gap text with
    | case1 text refusal refused final => exact absurd final (Bool.eq_false_iff.1 (open_gap text refusal refused))
    | case2 text refusal refused =>
        exact ⟨[], text, [], rfl, rfl, ⟨refusal, refused⟩, fun _ => rfl⟩
    | case3 text first rest read shorter ih =>
        obtain ⟨used, split, reads⟩ := exists_gap read
        obtain ⟨gaps, last, used', more, split', bare, reads'⟩ := ih
        refine ⟨first :: gaps, last, used ++ used', ?_, ?_, bare, fun {extent s} blank => ?_⟩
        · rw [more]
          rfl
        · rw [List.append_assoc, split', split]
        · rw [reads blank, reads' (s := s.skip used.length) blank, State.skip_skip, List.length_append]
    | case4 text first rest read idle =>
        have advanced := advances_gap text
        rw [read] at advanced
        cases advanced with
        | ok left shorter => exact absurd shorter idle
  obtain ⟨gaps, rest, used, read, split, bare, reads⟩ := passed
  have left : afterGaps text = rest := by rw [afterGaps, read]
  exact left ▸ ⟨used, split, bare, reads⟩

end Gaps

end Reader

end AnnotatedLisp
