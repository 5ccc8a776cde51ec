import AnnotatedLisp.Reader.Read

/-!
Reading character by character.

Each character that is read moves the place on by one, and a fault in what was read is never that the
text ends: only the end of the text tells that. After a line feed no token is left open except a string.
-/

namespace AnnotatedLisp

namespace Reader

variable {extent : Extent}

theorem exists_of_bind {α β : Type} {x : Except Fault α} {f : α → Except Fault β} {b : β}
    (h : x >>= f = .ok b) : ∃ a, x = .ok a ∧ f a = .ok b := by
  cases x with
  | error fault => cases h
  | ok a => exact ⟨a, rfl, h⟩

theorem run_nil (s : State) : run extent s [] = .ok s := rfl

theorem run_cons (s : State) (c : Char) (text : List Char) :
    run extent s (c :: text) = s.step extent c >>= fun t => run extent t text :=
  List.foldlM_cons

/-- Reading a text and what follows it is going on from the state that the text leads to. -/
theorem run_append (s : State) (before after : List Char) :
    run extent s (before ++ after) = run extent s before >>= fun t => run extent t after :=
  List.foldlM_append

/-- The forms of a text that is read on from a state. -/
def scanFrom (extent : Extent) (s : State) (text : List Char) : Except Fault (List Datum) :=
  run extent s text >>= State.finish extent

theorem read_of_scan {text : String} {form : Datum} {rest : List Datum}
    (h : scan .oneForm text.toList = .ok (form :: rest)) : read text = .ok form := by
  rw [read, h]

theorem exists_scan_of_read {text : String} {form : Datum} (h : read text = .ok form) :
    ∃ rest, scan .oneForm text.toList = .ok (form :: rest) := by
  unfold read at h
  split at h
  next rest scanned =>
    cases h
    exact ⟨rest, scanned⟩
  · cases h
  · cases h

/-- The place is reached, unless there is a fault in what was read. -/
def Reaches (offset : Nat) : Except Fault State → Prop
  | .ok t => t.offset = offset
  | .error fault => fault.cause ≠ .endOfText

namespace State

theorem reaches_enter (s : State) (opening : Opening) : Reaches s.offset (s.enter opening) := by
  unfold enter
  split
  · exact nofun
  · rfl

theorem reaches_endWord (s : State) (start : Nat) (chars : List Char) :
    Reaches s.offset (s.endWord start chars) := by
  unfold endWord
  split
  · rfl
  · exact nofun

theorem reaches_endKeyword (s : State) (start : Nat) (chars : List Char) :
    Reaches s.offset (s.endKeyword start chars) := by
  unfold endKeyword
  split
  · exact nofun
  · rfl

theorem mapOf_ne_endOfText {items : List Datum} {cause : Cause} (h : mapOf items = .error cause) :
    cause ≠ .endOfText := by
  unfold mapOf at h
  split at h
  · cases h
    exact nofun
  · split at h <;> cases h
    exact nofun

theorem close?_ne_endOfText {c : Char} {level : Level} {fault : Fault}
    (h : close? c level = some (.error fault)) : fault.cause ≠ .endOfText := by
  unfold close? at h
  split at h
  · cases h
  · cases h
  · split at h
    · cases h
    next failed =>
      cases h
      exact mapOf_ne_endOfText failed
  · cases h

theorem misplaced_ne_endOfText (s : State) (offset : Nat) :
    (s.misplaced extent offset).cause ≠ .endOfText := by
  unfold misplaced
  split <;> exact nofun

theorem reaches_stepToken (s : State) (c : Char) : Reaches (s.offset + 1) (s.stepToken c) := by
  unfold stepToken
  split
  · exact s.advance.reaches_enter _
  · exact s.advance.reaches_enter _
  · exact s.advance.reaches_enter _
  · exact s.advance.reaches_enter _
  · exact s.advance.reaches_enter _
  · rfl
  · rfl
  · rfl
  · split
    · rfl
    · split
      · exact nofun
      · split
        · rfl
        next failed => exact close?_ne_endOfText failed
        · exact nofun

theorem reaches_stepBlank (s : State) (c : Char) :
    Reaches (s.offset + 1) (s.stepBlank extent c) := by
  unfold stepBlank
  split
  · rfl
  · split
    · rfl
    · split
      · exact nofun
      · exact s.reaches_stepToken c

/-- A token is ended by the character after it. -/
theorem reaches_bind {offset : Nat} {ended : Except Fault State} (reaches : Reaches offset ended)
    (c : Char) : Reaches (offset + 1) (ended >>= fun t => t.stepBlank extent c) := by
  cases ended with
  | error fault => exact reaches
  | ok t =>
      obtain rfl : t.offset = offset := reaches
      exact t.reaches_stepBlank c

theorem reaches_step (s : State) (c : Char) : Reaches (s.offset + 1) (s.step extent c) := by
  unfold step
  split
  · exact s.reaches_stepBlank c
  · split
    · rfl
    · exact reaches_bind (s.reaches_endWord _ _) c
  · split
    · rfl
    · exact reaches_bind (s.reaches_endKeyword _ _) c
  · split
    · rfl
    · split <;> rfl
  · split
    · rfl
    · exact nofun
  · split
    · exact s.advance.reaches_enter _
    · exact reaches_bind (s.reaches_enter _) c
  · split
    · rfl
    · split <;> rfl
  · split
    · rfl
    · exact s.misplaced_ne_endOfText _

theorem enter_mode {s t : State} {opening : Opening} (h : s.enter opening = .ok t) :
    t.mode = .blank := by
  unfold enter at h
  split at h <;> cases h
  rfl

theorem endWord_mode {s t : State} {start : Nat} {chars : List Char}
    (h : s.endWord start chars = .ok t) : t.mode = .blank := by
  unfold endWord at h
  split at h <;> cases h
  rfl

theorem endKeyword_mode {s t : State} {start : Nat} {chars : List Char}
    (h : s.endKeyword start chars = .ok t) : t.mode = .blank := by
  unfold endKeyword at h
  split at h <;> cases h
  rfl

/-- Only a string goes on behind a line feed. -/
theorem step_lineFeed {s t : State} (h : s.step extent '\n' = .ok t) :
    t.mode = .blank ∨ ∃ chars, t.mode = .string chars := by
  have blank : ∀ {ended : Except Fault State}, (∀ u, ended = .ok u → u.mode = .blank) →
      (ended >>= fun u => u.stepBlank extent '\n') = .ok t → t.mode = .blank := by
    rintro (fault | u) mode h
    · cases h
    · cases h
      exact mode u rfl
  unfold step at h
  split at h
  next here => exact .inl ((congrArg mode (Except.ok.inj h)).symm.trans here)
  · exact .inl (blank (fun _ => endWord_mode) h)
  · exact .inl (blank (fun _ => endKeyword_mode) h)
  · cases h
    exact .inr ⟨_, rfl⟩
  · cases h
  · exact .inl (blank (fun _ => enter_mode) h)
  · cases h
    exact .inl rfl
  · cases h
    exact .inl rfl

end State

theorem reaches_run (text : List Char) (s : State) :
    Reaches (s.offset + text.length) (run extent s text) := by
  induction text generalizing s with
  | nil => rfl
  | cons c text ih =>
      have moved := @State.reaches_step extent s c
      rw [run_cons]
      cases step : s.step extent c with
      | error fault =>
          rw [step] at moved
          exact moved
      | ok t =>
          rw [step] at moved
          have here : t.offset = s.offset + 1 := moved
          have rest := ih t
          rw [here, Nat.add_assoc, Nat.add_comm 1] at rest
          exact rest

/-- A text that ends in a line feed leaves nothing open but compound forms and a string. -/
theorem run_lineFeed {s t : State} {text : List Char}
    (h : run extent s (text ++ ['\n']) = .ok t) :
    t.mode = .blank ∨ ∃ chars, t.mode = .string chars := by
  rw [run_append] at h
  cases read : run extent s text with
  | error fault =>
      rw [read] at h
      cases h
  | ok u =>
      rw [read] at h
      refine @State.step_lineFeed extent u t ?_
      rw [← h]
      exact (bind_pure _).symm

end Reader

end AnnotatedLisp
