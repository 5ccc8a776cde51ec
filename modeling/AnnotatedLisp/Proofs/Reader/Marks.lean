import AnnotatedLisp.Proofs.Reader.Alike
import AnnotatedLisp.Proofs.Reader.Printed
import Mathlib.Data.List.Infix

/-!
Marks stand for lists.

A mark in front of a form is read as the list that it stands for would be: as the symbol of its name and the
form. In both ways the form is read with one form more around it. So what is read inside one form more is
compared with what is read alone: the states go together until as much is open as can be, and then the inner
one is refused.
-/

namespace AnnotatedLisp

namespace Reader

/-- Nothing but separators and comments is read in the mode. -/
def Mode.IsGap : Mode → Prop
  | .blank | .comment _ | .commentReturn _ => True
  | _ => False

/-- At most one form has been read, and if there is one, nothing else has been begun. -/
inductive State.Lone (s : State) : Prop
  | reading (none : s.forms = [])
  | done {form : Datum} (levels : s.levels = []) (one : s.forms = [form]) (gap : s.mode.IsGap)

/-- No further form can be opened: 63 are open. -/
def State.IsFull (s : State) : Prop :=
  nestingLimit ≤ s.levels.length + 1

instance {s : State} : Decidable s.IsFull :=
  inferInstanceAs (Decidable (_ ≤ _))

/-- The state within one form more, which is open around all others. A form that is finished is an item of
it. -/
def State.inside (outer : Level) (s : State) : State :=
  match s.forms with
  | [] => { s with levels := s.levels ++ [outer] }
  | form :: _ =>
    let (levels, forms) := State.deliver form [outer] []
    { s with levels, forms }

/-- Inside one form more, a run goes on as it does alone, but is refused where no further form could be
opened alone. Nothing is said of what is a fault alone. -/
inductive Enclosed (outer : Level) : Except Fault State → Except Fault State → Prop
  | fault {fault : Fault} {y : Except Fault State} : Enclosed outer (.error fault) y
  | room {t : State} (lone : t.Lone) (room : ¬ t.IsFull) :
      Enclosed outer (.ok t) (.ok (t.inside outer))
  | full {t : State} {fault : Fault} (full : t.IsFull) (cause : fault.cause = .tooDeep) :
      Enclosed outer (.ok t) (.error fault)

theorem Enclosed.of_ok {outer : Level} {t u : State} (h : Enclosed outer (.ok t) (.ok u)) :
    t.Lone ∧ ¬ t.IsFull ∧ u = t.inside outer := by
  cases h with
  | room lone room => exact ⟨lone, room, rfl⟩

namespace State

variable {extent : Extent} {outer : Level} {s : State}

theorem enter_levels {t : State} {opening : Opening} (h : s.enter opening = .ok t) :
    t.levels = ⟨opening, []⟩ :: s.levels := by
  unfold enter at h
  split at h <;> cases h
  rfl

/-- A form becomes an item of one that is open, or it finishes all that are open, and then what it has become
is delivered to the one around them. -/
theorem deliver_outer (form : Datum) (levels : List Level) (outer : Level) :
    (∃ rest, rest.length ≤ levels.length ∧ deliver form levels [] = (rest, []) ∧
      deliver form (levels ++ [outer]) [] = (rest ++ [outer], [])) ∨
    ∃ given, deliver form levels [] = ([], [given]) ∧
      deliver form (levels ++ [outer]) [] = deliver given [outer] [] := by
  induction levels generalizing form with
  | nil => exact .inr ⟨form, rfl, rfl⟩
  | cons level levels ih =>
      obtain ⟨opening, items⟩ := level
      cases opening with
      | mark name =>
          obtain ⟨rest, shorter, alone, inside⟩ | given := ih (.seq () .list [.symbol name, form])
          · exact .inl ⟨rest, Nat.le_succ_of_le shorter, alone, inside⟩
          · exact .inr given
      | round | square | curly start =>
          exact .inl ⟨⟨_, form :: items⟩ :: levels, Nat.le_refl _, rfl, rfl⟩

theorem inside_of_reading (none : s.forms = []) :
    s.inside outer = { s with levels := s.levels ++ [outer] } := by
  rw [inside, none]

theorem enclosed_give (outer : Level) (none : s.forms = []) (room : ¬ s.IsFull) (form : Datum) :
    Enclosed outer (.ok (s.give form)) (.ok ((s.inside outer).give form)) := by
  obtain ⟨offset, mode, levels, forms⟩ := s
  obtain rfl : forms = [] := none
  obtain ⟨rest, shorter, alone, inside⟩ | ⟨given, alone, inside⟩ := deliver_outer form levels outer
  · have same : State.give ⟨offset, mode, levels ++ [outer], []⟩ form =
        State.inside outer (State.give ⟨offset, mode, levels, []⟩ form) := by
      simp only [give, alone, inside, State.inside]
    rw [inside_of_reading rfl, same]
    refine .room (.reading ?_) ?_
    · simp only [give, alone]
    · simp only [give, alone]
      exact fun full => room (Nat.le_trans full (Nat.succ_le_succ shorter))
  · have finished : State.give ⟨offset, mode, levels, []⟩ form = ⟨offset, .blank, [], [given]⟩ := by
      simp only [give, alone]
    have same : State.give ⟨offset, mode, levels ++ [outer], []⟩ form =
        State.inside outer ⟨offset, .blank, [], [given]⟩ := by
      simp only [give, inside, State.inside]
    rw [inside_of_reading rfl, same, finished]
    exact .room (.done rfl rfl trivial) (by decide : ¬ nestingLimit ≤ 1)

theorem enclosed_enter (outer : Level) (none : s.forms = []) (opening : Opening) :
    Enclosed outer (s.enter opening) ((s.inside outer).enter opening) := by
  have levels : (s.inside outer).levels.length = s.levels.length + 1 := by
    rw [inside_of_reading none, List.length_append, List.length_singleton]
  by_cases room : s.levels.length + 1 < nestingLimit
  · rw [enter_of_room room]
    by_cases more : s.levels.length + 1 + 1 < nestingLimit
    · have same : (s.inside outer).within opening [] = (s.within opening []).inside outer := by
        rw [inside_of_reading none, inside_of_reading (s := s.within opening []) none]
        rfl
      rw [enter_of_room (levels ▸ more), same]
      exact .room (.reading none) (Nat.not_le.2 more)
    · rw [enter_of_full (levels ▸ Nat.not_lt.1 more)]
      exact .full (Nat.not_lt.1 more) rfl
  · rw [enter_of_full (Nat.not_lt.1 room)]
    exact .fault

theorem enclosed_stepToken (outer : Level) (none : s.forms = []) (room : ¬ s.IsFull) (c : Char) :
    Enclosed outer (s.stepToken c) ((s.inside outer).stepToken c) := by
  obtain ⟨offset, mode, levels, forms⟩ := s
  obtain rfl : forms = [] := none
  rw [inside_of_reading rfl]
  unfold stepToken
  split
  · exact enclosed_enter outer (s := ⟨offset + 1, mode, levels, []⟩) rfl _
  · exact enclosed_enter outer (s := ⟨offset + 1, mode, levels, []⟩) rfl _
  · exact enclosed_enter outer (s := ⟨offset + 1, mode, levels, []⟩) rfl _
  · exact enclosed_enter outer (s := ⟨offset + 1, mode, levels, []⟩) rfl _
  · exact enclosed_enter outer (s := ⟨offset + 1, mode, levels, []⟩) rfl _
  · exact .room (.reading rfl) room
  · exact .room (.reading rfl) room
  · exact .room (.reading rfl) room
  · split
    · exact .room (.reading rfl) room
    · cases levels with
      | nil => exact .fault
      | cons level levels =>
          dsimp only [List.cons_append]
          cases close? _ level with
          | none => exact .fault
          | some closed =>
              cases closed with
              | error fault => exact .fault
              | ok form =>
                  have room' : ¬ State.IsFull ⟨offset + 1, mode, levels, []⟩ := fun full =>
                    room (Nat.le_succ_of_le full)
                  exact enclosed_give outer rfl room' form

theorem enclosed_stepBlank (outer : Level) (lone : s.Lone) (blank : s.mode = .blank) (room : ¬ s.IsFull)
    (c : Char) :
    Enclosed outer (s.stepBlank .oneForm c) ((s.inside outer).stepBlank .oneForm c) := by
  obtain ⟨offset, mode, levels, forms⟩ := s
  obtain rfl : mode = .blank := blank
  cases lone with
  | reading none =>
      obtain rfl : forms = [] := none
      have unfinished : State.isComplete ⟨offset, .blank, levels, []⟩ .oneForm = false := by
        simp [isComplete]
      have unfinished' : State.isComplete ⟨offset, .blank, levels ++ [outer], []⟩ .oneForm = false := by
        simp [isComplete]
      have token := enclosed_stepToken outer (s := ⟨offset, .blank, levels, []⟩) rfl room c
      rw [inside_of_reading rfl] at token ⊢
      simp only [stepBlank, unfinished, unfinished']
      split
      · exact .room (.reading rfl) room
      · split
        · exact .room (.reading rfl) room
        · exact token
  | @done form none one gap =>
      obtain rfl : levels = [] := none
      obtain rfl : forms = [form] := one
      simp only [stepBlank]
      split
      · exact .room (.done rfl rfl trivial) room
      · split
        · exact .room (.done rfl rfl trivial) room
        · exact .fault

theorem enclosed_given (outer : Level) (none : s.forms = []) (room : ¬ s.IsFull) (form : Datum) (c : Char) :
    Enclosed outer ((s.give form).stepBlank .oneForm c)
      (((s.inside outer).give form).stepBlank .oneForm c) := by
  obtain ⟨lone, room, same⟩ := (enclosed_give outer none room form).of_ok
  rw [same]
  exact enclosed_stepBlank outer lone rfl room c

/-- In a mark nothing is closed but what was opened there. -/
theorem length_le_of_mark {name : String} {items : List Datum} {levels : List Level}
    (here : s.levels = ⟨.mark name, items⟩ :: levels) {c : Char} {t : State}
    (h : s.stepBlank .oneForm c = .ok t) : s.levels.length ≤ t.levels.length := by
  have opens {opening : Opening} (h : s.advance.enter opening = .ok t) :
      s.levels.length ≤ t.levels.length := by
    rw [enter_levels h]
    exact Nat.le_succ _
  unfold stepBlank at h
  split at h
  · cases h
    exact Nat.le_refl _
  · split at h
    · cases h
      exact Nat.le_refl _
    · split at h
      · cases h
      · unfold stepToken at h
        split at h
        · exact opens h
        · exact opens h
        · exact opens h
        · exact opens h
        · exact opens h
        · cases h
          exact Nat.le_refl _
        · cases h
          exact Nat.le_refl _
        · cases h
          exact Nat.le_refl _
        · split at h
          · cases h
            exact Nat.le_refl _
          · rw [here] at h
            cases h

theorem enclosed_tilde (outer : Level) (none : s.forms = []) (c : Char) :
    Enclosed outer (s.enter (.mark "unquote") >>= fun t => t.stepBlank .oneForm c)
      ((s.inside outer).enter (.mark "unquote") >>= fun t => t.stepBlank .oneForm c) := by
  have enters := enclosed_enter outer none (.mark "unquote")
  cases entered : s.enter (.mark "unquote") with
  | error fault => exact .fault
  | ok t =>
      rw [entered] at enters
      generalize (s.inside outer).enter (.mark "unquote") = y at enters ⊢
      cases enters with
      | room lone room => exact enclosed_stepBlank outer lone (enter_mode entered) room c
      | @full _ fault full cause =>
          change Enclosed outer (t.stepBlank .oneForm c) (.error fault)
          cases stepped : t.stepBlank .oneForm c with
          | error => exact .fault
          | ok u =>
              have more := length_le_of_mark (enter_levels entered) stepped
              exact .full (full.trans (Nat.succ_le_succ more)) cause

theorem enclosed_step (outer : Level) (lone : s.Lone) (room : ¬ s.IsFull) (c : Char) :
    Enclosed outer (s.step .oneForm c) ((s.inside outer).step .oneForm c) := by
  obtain ⟨offset, mode, levels, forms⟩ := s
  cases lone with
  | reading none =>
      obtain rfl : forms = [] := none
      rw [inside_of_reading rfl]
      cases mode with
      | blank => exact enclosed_stepBlank outer (.reading rfl) rfl room c
      | word start chars =>
          unfold step
          dsimp only
          split
          · exact .room (.reading rfl) room
          · unfold endWord
            cases Token.ofWord? chars.reverse with
            | none => exact .fault
            | some form =>
                exact enclosed_given outer (s := ⟨offset, .word start chars, levels, []⟩) rfl room form c
      | keyword start chars =>
          unfold step
          dsimp only
          split
          · exact .room (.reading rfl) room
          · unfold endKeyword
            split
            · exact .fault
            · exact enclosed_given outer (s := ⟨offset, .keyword start chars, levels, []⟩) rfl room _ c
      | string chars =>
          unfold step
          dsimp only
          split
          · exact enclosed_give outer (s := ⟨offset + 1, .string chars, levels, []⟩) rfl room _
          · split
            · exact .room (.reading rfl) room
            · exact .room (.reading rfl) room
      | escape start chars =>
          unfold step
          dsimp only
          split
          · exact .room (.reading rfl) room
          · exact .fault
      | tilde =>
          unfold step
          dsimp only
          split
          · exact enclosed_enter outer (s := ⟨offset + 1, .tilde, levels, []⟩) rfl _
          · exact enclosed_tilde outer (s := ⟨offset, .tilde, levels, []⟩) rfl c
      | comment start =>
          unfold step
          dsimp only
          split
          · exact .room (.reading rfl) room
          · split
            · exact .room (.reading rfl) room
            · exact .room (.reading rfl) room
      | commentReturn start =>
          unfold step
          dsimp only
          split
          · exact .room (.reading rfl) room
          · exact .fault
  | @done form none one gap =>
      obtain rfl : levels = [] := none
      obtain rfl : forms = [form] := one
      cases mode with
      | blank =>
          have lone : State.Lone ⟨offset, .blank, [], [form]⟩ := .done rfl rfl trivial
          exact enclosed_stepBlank outer lone rfl room c
      | comment start =>
          unfold step
          dsimp only [inside]
          split
          · exact .room (.done rfl rfl trivial) room
          · split
            · exact .room (.done rfl rfl trivial) room
            · exact .room (t := ⟨offset + 1, .comment start, [], [form]⟩) (.done rfl rfl trivial) room
      | commentReturn start =>
          unfold step
          dsimp only [inside]
          split
          · exact .room (.done rfl rfl trivial) room
          · exact .fault
      | word | keyword | string | escape | tilde => exact gap.elim

theorem enclosed_settle (outer : Level) (lone : s.Lone) (room : ¬ s.IsFull) :
    Enclosed outer (s.settle .oneForm) ((s.inside outer).settle .oneForm) := by
  obtain ⟨offset, mode, levels, forms⟩ := s
  cases lone with
  | reading none =>
      obtain rfl : forms = [] := none
      rw [inside_of_reading rfl]
      cases mode with
      | blank | comment => exact .room (.reading rfl) room
      | word start chars =>
          unfold settle endWord
          dsimp only
          cases Token.ofWord? chars.reverse with
          | none => exact .fault
          | some form =>
              exact enclosed_give outer (s := ⟨offset, .word start chars, levels, []⟩) rfl room form
      | keyword start chars =>
          unfold settle endKeyword
          dsimp only
          split
          · exact .fault
          · exact enclosed_give outer (s := ⟨offset, .keyword start chars, levels, []⟩) rfl room _
      | string | escape | commentReturn => exact .fault
      | tilde => exact enclosed_enter outer (s := ⟨offset, .tilde, levels, []⟩) rfl _
  | @done form none one gap =>
      obtain rfl : levels = [] := none
      obtain rfl : forms = [form] := one
      cases mode with
      | blank | comment => exact .room (.done rfl rfl trivial) room
      | commentReturn => exact .fault
      | word | keyword | string | escape | tilde => exact gap.elim

/-- A line feed ends what the end of the text ends. -/
theorem step_lineFeed_of_settle {t : State} (h : s.settle extent = .ok t) :
    s.step extent '\n' = .ok { t.advance with mode := .blank } := by
  have ends {ended : Except Fault State} (blank : ∀ u, ended = .ok u → u.mode = .blank)
      (h : ended = .ok t) :
      (ended >>= fun u => u.stepBlank extent '\n') = .ok { t.advance with mode := .blank } := by
    rw [h, ← blank t h]
    rfl
  obtain ⟨offset, mode, levels, forms⟩ := s
  cases mode with
  | blank | comment =>
      cases h
      rfl
  | word => exact ends (fun _ => endWord_mode) h
  | keyword => exact ends (fun _ => endKeyword_mode) h
  | string | escape | commentReturn => cases h
  | tilde => exact ends (fun _ => enter_mode) h

end State

/-- At some place in the text no further form could be opened. -/
def Exhausts (s : State) (text : List Char) : Prop :=
  ∃ before after t, text = before ++ after ∧ run .oneForm s before = .ok t ∧ t.IsFull

theorem exhausts_iff {s : State} {text : List Char} :
    Exhausts s text ↔
      ∃ before ∈ text.inits, ∃ t ∈ (run .oneForm s before).toOption, t.IsFull := by
  constructor
  · rintro ⟨before, after, t, rfl, read, full⟩
    refine ⟨before, (List.mem_inits _ _).2 (List.prefix_append before after), t, ?_, full⟩
    rw [read]
    rfl
  · rintro ⟨before, mem, t, here, full⟩
    obtain ⟨after, same⟩ := (List.mem_inits _ _).1 mem
    cases read : run .oneForm s before with
    | error fault =>
        rw [read] at here
        cases here
    | ok u =>
        rw [read] at here
        cases here
        exact ⟨before, after, t, same.symm, read, full⟩

instance {s : State} {text : List Char} : Decidable (Exhausts s text) :=
  decidable_of_iff' _ exhausts_iff

section Run

variable {outer : Level} {s t : State} {text : List Char}

theorem not_exhausts_nil (room : ¬ s.IsFull) : ¬ Exhausts s [] := by
  rintro ⟨before, after, t, split, read, full⟩
  obtain ⟨rfl, -⟩ := List.append_eq_nil_iff.1 split.symm
  cases read
  exact room full

theorem exhausts_cons {c : Char} (room : ¬ s.IsFull) (stepped : s.step .oneForm c = .ok t) :
    Exhausts s (c :: text) ↔ Exhausts t text := by
  constructor
  · rintro ⟨before, after, u, split, read, full⟩
    cases before with
    | nil =>
        cases read
        exact absurd full room
    | cons d before =>
        obtain ⟨rfl, same⟩ := List.cons_eq_cons.1 split
        rw [run_cons, stepped] at read
        exact ⟨before, after, u, same, read, full⟩
  · rintro ⟨before, after, u, split, read, full⟩
    refine ⟨c :: before, after, u, congrArg (c :: ·) split, ?_, full⟩
    rw [run_cons, stepped]
    exact read

/-- What is read alone is read inside one form more, unless it exhausts the levels. By induction on the text: as
long as a form can be opened, the state inside is the one alone with one form around it. -/
theorem run_inside (outer : Level) (lone : s.Lone) (room : ¬ s.IsFull) (h : run .oneForm s text = .ok t) :
    (¬ Exhausts s text ∧ t.Lone ∧ ¬ t.IsFull ∧
      run .oneForm (s.inside outer) text = .ok (t.inside outer)) ∨
    (Exhausts s text ∧ Refuses .oneForm (s.inside outer) text) := by
  induction text generalizing s with
  | nil =>
      cases h
      exact .inl ⟨not_exhausts_nil room, lone, room, rfl⟩
  | cons c text ih =>
      have step := State.enclosed_step outer lone room c
      rw [run_cons] at h
      obtain ⟨u, stepped, h⟩ := exists_of_bind h
      rw [stepped] at step
      rw [exhausts_cons room stepped, Refuses, run_cons]
      generalize (s.inside outer).step .oneForm c = y at step ⊢
      cases step with
      | room lone' room' => exact ih lone' room' h
      | full full cause => exact .inr ⟨⟨[], text, u, rfl, rfl, full⟩, _, rfl, cause⟩

/-- Where one form has been read alone, it has been delivered to the form that is open around it. -/
theorem settle_inside (outer : Level) {form : Datum} {rest : List Datum} (lone : t.Lone) (room : ¬ t.IsFull)
    (h : t.finish .oneForm = .ok (form :: rest)) :
    ∃ offset mode, (t.inside outer).settle .oneForm =
      .ok ⟨offset, mode, (State.deliver form [outer] []).1, (State.deliver form [outer] []).2⟩ := by
  have settles := State.enclosed_settle outer lone room
  unfold State.finish at h
  obtain ⟨u, settled, h⟩ := exists_of_bind h
  split at h
  next closed =>
    have closed : u.levels = [] := by simpa using closed
    have forms : u.forms.reverse = form :: rest := Except.ok.inj h
    rw [settled] at settles
    generalize (t.inside outer).settle .oneForm = y at settles ⊢
    cases settles with
    | full full =>
        rw [State.IsFull, closed] at full
        exact absurd full (by decide)
    | room lone =>
        cases lone with
        | reading none =>
            rw [none] at forms
            cases forms
        | @done given levels one =>
            rw [one] at forms
            obtain ⟨rfl, -⟩ := List.cons_eq_cons.1 forms
            refine ⟨u.offset, u.mode, ?_⟩
            rw [State.inside, one]
  · cases h

/-- A text that is one form alone is read inside one form more up to what closes that, unless it exhausts the
levels. -/
theorem scanFrom_inside {form given : Datum} {rest : List Datum} {closing : List Char} (lone : s.Lone)
    (room : ¬ s.IsFull) (h : scanFrom .oneForm s text = .ok (form :: rest))
    (closes : ∀ {x : State} {offset : Nat} {mode : Mode}, x.settle .oneForm =
      .ok ⟨offset, mode, (State.deliver form [outer] []).1, (State.deliver form [outer] []).2⟩ →
      scanFrom .oneForm x closing = .ok [given]) :
    (¬ Exhausts s text → scanFrom .oneForm (s.inside outer) (text ++ closing) = .ok [given]) ∧
    (Exhausts s text → ∃ fault, scanFrom .oneForm (s.inside outer) (text ++ closing) = .error fault ∧
      fault.cause = .tooDeep) := by
  obtain ⟨t, read, h⟩ := exists_of_bind h
  obtain ⟨spare, lone, room, inside⟩ | ⟨exhausts, refuses⟩ := run_inside outer lone room read
  · refine ⟨fun _ => ?_, fun exhausts => absurd exhausts spare⟩
    obtain ⟨offset, mode, settled⟩ := settle_inside outer lone room h
    rw [scanFrom, run_append, inside]
    exact closes settled
  · refine ⟨fun spare => absurd exhausts spare, fun _ => ?_⟩
    obtain ⟨fault, failed, cause⟩ := refuses.append closing
    refine ⟨fault, ?_, cause⟩
    rw [scanFrom, failed]
    rfl

end Run

/-- The marks in front of a form, and the names of the lists that they stand for. -/
inductive Marks : String → String → Prop
  | quote : Marks "'" "quote"
  | quasiquote : Marks "\x60" "quasiquote"
  | unquote : Marks "~" "unquote"
  | spliceUnquote : Marks "~@" "splice-unquote"

/-- The list that a mark in front of a form stands for. -/
def marked (name : String) (form : Datum) : Datum :=
  .seq () .list [.symbol name, form]

section Around

variable {x : State} {offset : Nat} {mode : Mode} {form : Datum}

theorem scanFrom_marked (name : String) (h : x.settle .oneForm = .ok ⟨offset, mode,
      (State.deliver form [⟨.mark name, []⟩] []).1, (State.deliver form [⟨.mark name, []⟩] []).2⟩) :
    scanFrom .oneForm x [] = .ok [marked name form] := by
  change x.finish .oneForm = _
  rw [State.finish, h]
  rfl

theorem scanFrom_listed (name : String) (h : x.settle .oneForm = .ok ⟨offset, mode,
      (State.deliver form [⟨.round, [.symbol name]⟩] []).1,
      (State.deliver form [⟨.round, [.symbol name]⟩] []).2⟩) :
    scanFrom .oneForm x ['\n', ')'] = .ok [marked name form] := by
  rw [scanFrom, run_cons, State.step_lineFeed_of_settle h]
  change run .oneForm (State.within ⟨offset + 1, .blank, [], []⟩ .round [form, .symbol name]) [')'] >>= _ = _
  rw [run_cons, State.step_close (by decide) rfl]
  rfl

end Around

/-- Reading on inside a form that has been opened does not depend on where it was. -/
theorem scanFrom_within (offset : Nat) (level : Level) (text : List Char) :
    Agree Eq (scanFrom .oneForm ⟨offset, .blank, [level], []⟩ text)
      (scanFrom .oneForm (State.start.inside level) text) :=
  scanFrom_alike (s := ⟨offset, .blank, [level], []⟩) (t := State.start.inside level)
    ⟨.blank, .cons ⟨.refl _, rfl⟩ .nil, rfl⟩ text

theorem scan_within {level : Level} {before : List Char} {offset : Nat}
    (read : run .oneForm .start before = .ok ⟨offset, .blank, [level], []⟩) (text : List Char) :
    Agree Eq (scan .oneForm (before ++ text)) (scanFrom .oneForm (State.start.inside level) text) := by
  rw [scan, run_append, read]
  exact scanFrom_within offset level text

theorem scan_mark {mark name : String} (marks : Marks mark name) {text : List Char} {form : Datum}
    {rest : List Datum} (h : scan .oneForm text = .ok (form :: rest)) :
    Agree Eq (scan .oneForm (mark.toList ++ text))
      (scanFrom .oneForm (State.start.inside ⟨.mark name, []⟩) text) := by
  cases marks with
  | quote => exact scan_within rfl text
  | quasiquote => exact scan_within rfl text
  | spliceUnquote => exact scan_within rfl text
  | unquote =>
      -- The mark is only known by the next character, which is not the one that begins no form.
      cases text with
      | nil => cases h
      | cons c text =>
          have other : c ≠ '@' := by
            rintro rfl
            cases h
          have same : run .oneForm .start ("~".toList ++ c :: text) =
              run .oneForm ⟨1, .blank, [⟨.mark "unquote", []⟩], []⟩ (c :: text) := by
            rw [run_append, run_cons (s := ⟨1, .blank, [⟨.mark "unquote", []⟩], []⟩)]
            change State.step .oneForm ⟨1, .tilde, [], []⟩ c >>= _ = _
            simp only [State.step, if_neg other]
            rfl
          rw [scan, same]
          exact scanFrom_within 1 ⟨.mark "unquote", []⟩ (c :: text)

theorem scan_longhand {mark name : String} (marks : Marks mark name) (text : List Char) :
    Agree Eq (scan .oneForm (("(" ++ name ++ " ").toList ++ text))
      (scanFrom .oneForm (State.start.inside ⟨.round, [.symbol name]⟩) text) := by
  cases marks with
  | quote => exact scan_within rfl text
  | quasiquote => exact scan_within rfl text
  | unquote => exact scan_within rfl text
  | spliceUnquote => exact scan_within rfl text

/-- While the text is read alone, 63 compound forms and marks are open at once at some place, one inside the
other. -/
def UsesAllLevels (text : String) : Prop :=
  Exhausts .start text.toList

/-- The text is refused because too much is open at once. -/
def TooDeep (text : String) : Prop :=
  ∃ error, read text = .error error ∧ error.kind = .tooDeeplyNested

section Texts

variable {text : String} {result : Except Fault (List Datum)}

theorem read_of_agree {form : Datum} (h : Agree Eq (scan .oneForm text.toList) result)
    (here : result = .ok [form]) : read text = .ok form :=
  read_of_scan ((h.ok_iff [form]).2 here)

theorem tooDeep_of_agree (h : Agree Eq (scan .oneForm text.toList) result)
    (failed : ∃ fault, result = .error fault ∧ fault.cause = .tooDeep) : TooDeep text := by
  obtain ⟨fault, rfl, cause⟩ := failed
  unfold TooDeep read
  generalize scan .oneForm text.toList = scanned at h ⊢
  cases h with
  | @error fault' _ same =>
      refine ⟨fault'.toError text.toList, rfl, ?_⟩
      change fault'.kind = _
      rw [Fault.kind, same, cause]

end Texts

/-- In front of a text that is read as a form, a mark stands for the list of its name and the form. The mark
and the list are read as the same, unless the form itself needs all the levels that there are: then neither
is read. -/
theorem read_mark {mark name text : String} {form : Datum} (marks : Marks mark name)
    (h : read text = .ok form) :
    (¬ UsesAllLevels text →
      read (mark ++ text) = .ok (marked name form) ∧
      read ("(" ++ name ++ " " ++ text ++ "\n)") = .ok (marked name form)) ∧
    (UsesAllLevels text → TooDeep (mark ++ text) ∧ TooDeep ("(" ++ name ++ " " ++ text ++ "\n)")) := by
  obtain ⟨rest, scanned⟩ := exists_scan_of_read h
  have short : Agree Eq (scan .oneForm (mark ++ text).toList)
      (scanFrom .oneForm (State.start.inside ⟨.mark name, []⟩) (text.toList ++ [])) := by
    rw [String.toList_append, List.append_nil]
    exact scan_mark marks scanned
  have long : Agree Eq (scan .oneForm ("(" ++ name ++ " " ++ text ++ "\n)").toList)
      (scanFrom .oneForm (State.start.inside ⟨.round, [.symbol name]⟩) (text.toList ++ ['\n', ')'])) := by
    rw [String.toList_append, String.toList_append, List.append_assoc]
    exact scan_longhand marks _
  have lone : State.start.Lone := .reading rfl
  have room : ¬ State.start.IsFull := by decide
  obtain ⟨short_ok, short_fault⟩ := scanFrom_inside lone room scanned (scanFrom_marked name)
  obtain ⟨long_ok, long_fault⟩ := scanFrom_inside lone room scanned (scanFrom_listed name)
  exact ⟨fun spare => ⟨read_of_agree short (short_ok spare), read_of_agree long (long_ok spare)⟩,
    fun uses => ⟨tooDeep_of_agree short (short_fault uses), tooDeep_of_agree long (long_fault uses)⟩⟩

/-- A comment at the end of the text does no harm, even behind the mark that could be another with the next
character. A form inside 63 others is read, but cannot be quoted. -/
theorem read_mark_of_comment_and_depth :
    let form : Datum := .seq () .vector [.symbol "x", marked "quote" (.symbol "y")]
    let deep := String.ofList (List.replicate 62 '(' ++ "'x".toList ++ List.replicate 62 ')')
    (read "[x 'y] ; z" = .ok form ∧ read "~[x 'y] ; z" = .ok (marked "unquote" form) ∧
      read "(unquote [x 'y] ; z\n)" = .ok (marked "unquote" form)) ∧
    (∃ form, read deep = .ok form) ∧ TooDeep ("'" ++ deep) ∧
      TooDeep ("(" ++ "quote" ++ " " ++ deep ++ "\n)") := by
  intro form deep
  have read_form : read "[x 'y] ; z" = .ok form := rfl
  have shallow : ¬ UsesAllLevels "[x 'y] ; z" := by
    unfold UsesAllLevels
    decide
  have uses : UsesAllLevels deep := by
    unfold UsesAllLevels
    decide +kernel
  have readable : (read deep).isOk = true := by decide +kernel
  obtain ⟨inner, read_deep⟩ : ∃ inner, read deep = .ok inner := by
    cases read : read deep with
    | ok inner => exact ⟨inner, rfl⟩
    | error error =>
        rw [read] at readable
        cases readable
  exact ⟨⟨read_form, (read_mark .unquote read_form).1 shallow⟩, ⟨inner, read_deep⟩,
    (read_mark .quote read_deep).2 uses⟩

end Reader

end AnnotatedLisp
