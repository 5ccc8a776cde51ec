import Mathlib.Data.List.Infix
import AnnotatedLisp.Proofs.Session.Submission

/-!
What was collected and given up leaves no trace.

At every prompt of a session nothing is collected, or what is collected breaks off. A line that leaves the text
broken off only adds to it, so that lines typed at a fresh prompt and then given up lead back to the very session
that was there before them, and all that follows is the same.
-/

namespace AnnotatedLisp

namespace Session

/-- The session at its prompt after the inputs, unless they end it. -/
def prompted? (fuel : Nat) (s : Session) : List Input → Option Session
  | [] => some s
  | input :: inputs =>
    let next := (s.take fuel input).flush.2
    if next.running then prompted? fuel next inputs else none

/-- The session waits for input: it goes on, all text has been taken away, and nothing is collected or what is
collected breaks off. -/
structure Waits (s : Session) : Prop where
  running : s.running = true
  silent : s.store.output = ""
  pending : s.pending = "" ∨ Reader.isIncomplete s.pending = true

section Prompts

variable {fuel : Nat} {s t : Session} {input : Input} {inputs : List Input}

theorem prompted?_cons (running : (s.take fuel input).flush.2.running = true) :
    s.prompted? fuel (input :: inputs) = (s.take fuel input).flush.2.prompted? fuel inputs :=
  if_pos running

theorem waits_start : start.Waits :=
  ⟨rfl, rfl, .inl rfl⟩

theorem pending_obey (s : Session) (command : Command) : (s.obey command).pending = s.pending := by
  cases command <;> rfl

theorem pending_collect (s : Session) (line : String) :
    (s.collect fuel line).pending = "" ∨ Reader.isIncomplete (s.collect fuel line).pending = true := by
  cases broken : Reader.isIncomplete (s.pending ++ line ++ "\n") with
  | true =>
      rw [collect_of_incomplete fuel broken]
      exact .inr broken
  | false =>
      rw [collect_of_complete fuel broken]
      exact .inl rfl

/-- By cases on the input: whatever it is, what stays collected breaks off. -/
theorem Waits.take (waits : s.Waits) (running : (s.take fuel input).flush.2.running = true) :
    (s.take fuel input).flush.2.Waits := by
  refine ⟨running, rfl, ?_⟩
  change (s.take fuel input).pending = "" ∨ Reader.isIncomplete (s.take fuel input).pending = true
  cases input with
  | line line =>
      rw [Session.take]
      split
      · rw [pending_obey]
        exact waits.pending
      · exact pending_collect s line
  | interrupt =>
      rw [Session.take]
      split
      · exact waits.pending
      · exact .inl rfl
  | endOfInput | failure => exact waits.pending

theorem Waits.prompted? (waits : s.Waits) (prompted : s.prompted? fuel inputs = some t) : t.Waits := by
  induction inputs generalizing s with
  | nil =>
      cases prompted
      exact waits
  | cons input inputs ih =>
      rw [Session.prompted?] at prompted
      split at prompted
      next running => exact ih (waits.take running) prompted
      next => cases prompted

theorem ne_empty_of_incomplete {text : String} (incomplete : Reader.isIncomplete text = true) : text ≠ "" := by
  rintro rfl
  cases incomplete

theorem prompt_of_fresh (fresh : s.pending = "") : s.prompt = "glisp> " := by
  rw [prompt, fresh]
  rfl

theorem prompt_of_broken (broken : Reader.isIncomplete s.pending = true) : s.prompt = "  ...> " := by
  rw [prompt, if_neg fun empty => ne_empty_of_incomplete broken (String.isEmpty_iff.1 empty)]

/-- The prompt tells which of the two it is. -/
theorem Waits.prompt_iff (waits : s.Waits) :
    (s.prompt = "glisp> " ↔ s.pending = "") ∧
      (s.prompt = "  ...> " ↔ Reader.isIncomplete s.pending = true) := by
  obtain fresh | broken := waits.pending
  · have whole : ¬ Reader.isIncomplete s.pending = true := fun broken => ne_empty_of_incomplete broken fresh
    rw [prompt_of_fresh fresh]
    exact ⟨iff_of_true rfl fresh, iff_of_false (by decide) whole⟩
  · rw [prompt_of_broken broken]
    exact ⟨iff_of_false (by decide) (ne_empty_of_incomplete broken), iff_of_true rfl broken⟩

end Prompts

section Turns

variable {fuel : Nat} {s t : Session} {input : Input} {inputs : List Input}

/-- The turns over inputs that do not end the session come before those of the session that they lead to. -/
theorem exists_turns_append {before : List Input} (prompted : s.prompted? fuel before = some t) :
    ∃ earlier : List Turn, earlier.length = before.length ∧ ∀ after,
      s.turns fuel (before ++ after) = (earlier ++ (t.turns fuel after).1, (t.turns fuel after).2) := by
  induction before generalizing s with
  | nil =>
      cases prompted
      exact ⟨[], rfl, fun _ => rfl⟩
  | cons input before ih =>
      rw [Session.prompted?] at prompted
      split at prompted
      next running =>
        obtain ⟨earlier, long, turns⟩ := ih prompted
        refine ⟨⟨s.prompt, (s.take fuel input).flush.1⟩ :: earlier, congrArg (· + 1) long, fun after => ?_⟩
        rw [List.cons_append, turns_cons fuel _ _ _ running, turns after, List.cons_append]
      next => cases prompted

/-- A turn shows the prompt of the session that the inputs before it lead to. -/
theorem exists_prompted_of_turn {place : Nat} {turn : Turn}
    (here : (s.turns fuel inputs).1[place]? = some turn) :
    ∃ t, s.prompted? fuel (inputs.take place) = some t ∧ turn.prompt = t.prompt := by
  induction inputs generalizing s place with
  | nil =>
      cases place with
      | zero =>
          cases here
          exact ⟨s, rfl, rfl⟩
      | succ place => cases here
  | cons input inputs ih =>
      cases running : (s.take fuel input).flush.2.running with
      | true =>
          rw [turns_cons fuel _ _ _ running] at here
          cases place with
          | zero =>
              cases here
              exact ⟨s, rfl, rfl⟩
          | succ place =>
              obtain ⟨t, prompted, same⟩ := ih here
              exact ⟨t, (prompted?_cons running).trans prompted, same⟩
      | false =>
          rw [turns] at here
          simp only [running, Bool.false_eq_true, if_false] at here
          cases place with
          | zero =>
              cases here
              exact ⟨s, rfl, rfl⟩
          | succ place => cases here

end Turns

section Cancelled

variable {fuel : Nat} {s : Session} {line : String}

theorem append_lines_cons (text line : String) (texts : List String) :
    text ++ lines (line :: texts) = text ++ line ++ "\n" ++ lines texts := by
  rw [lines_cons, String.append_assoc, String.append_assoc, String.append_assoc]

theorem append_lines_nil (text : String) : text ++ lines [] = text := by
  rw [lines, List.map_nil, String.join_nil, String.append_empty]

/-- Every beginning of the lines breaks off, when it is typed after a text. -/
def Unfinished (text : String) (texts : List String) : Prop :=
  ∀ typed, typed ≠ [] → typed <+: texts → Reader.isIncomplete (text ++ lines typed) = true

theorem Unfinished.first {text : String} {texts : List String} (unfinished : Unfinished text (line :: texts)) :
    Reader.isIncomplete (text ++ line ++ "\n") = true := by
  have broken := unfinished [line] (List.cons_ne_nil _ _) (List.prefix_append [line] texts)
  rwa [append_lines_cons, append_lines_nil] at broken

theorem Unfinished.rest {text : String} {texts : List String} (unfinished : Unfinished text (line :: texts)) :
    Unfinished (text ++ line ++ "\n") texts := by
  intro typed _ beginning
  rw [← append_lines_cons]
  exact unfinished (line :: typed) (List.cons_ne_nil _ _) (List.cons_prefix_cons.2 ⟨rfl, beginning⟩)

/-- The first turn of a cancelled entry or a later one: it adds a line to what is collected and writes nothing. -/
theorem turns_of_broken (waits : s.Waits) (uncommanded : s.pending.isEmpty → command? line = none)
    (broken : Reader.isIncomplete (s.pending ++ line ++ "\n") = true) (inputs : List Input) :
    s.turns fuel (.line line :: inputs) =
      (⟨s.prompt, ""⟩ :: ({ s with pending := s.pending ++ line ++ "\n" }.turns fuel inputs).1,
        ({ s with pending := s.pending ++ line ++ "\n" }.turns fuel inputs).2) := by
  have taken : (s.take fuel (.line line)).flush = ("", { s with pending := s.pending ++ line ++ "\n" }) := by
    rw [take_line fuel s uncommanded, collect_of_incomplete fuel broken]
    exact Prod.ext waits.silent (flush_of_silent waits.silent)
  have running : (s.take fuel (.line line)).flush.2.running = true := by
    rw [taken]
    exact waits.running
  rw [turns_cons fuel _ _ _ running, taken]

theorem turns_of_interrupt (waits : s.Waits) (broken : Reader.isIncomplete s.pending = true)
    (inputs : List Input) :
    s.turns fuel (.interrupt :: inputs) =
      (⟨"  ...> ", ""⟩ :: ({ s with pending := "" }.turns fuel inputs).1,
        ({ s with pending := "" }.turns fuel inputs).2) := by
  have taken : (s.take fuel .interrupt).flush = ("", { s with pending := "" }) := by
    rw [take, if_neg fun empty => ne_empty_of_incomplete broken (String.isEmpty_iff.1 empty)]
    exact Prod.ext waits.silent (flush_of_silent waits.silent)
  have running : (s.take fuel .interrupt).flush.2.running = true := by
    rw [taken]
    exact waits.running
  rw [turns_cons fuel _ _ _ running, taken, prompt_of_broken broken]

/-- By induction on the lines that are still to come, each of which leaves the text broken off. -/
theorem turns_of_cancelled (fuel : Nat) {texts : List String} (waits : s.Waits)
    (broken : Reader.isIncomplete s.pending = true)
    (unfinished : Unfinished s.pending texts) (after : List Input) :
    s.turns fuel (texts.map .line ++ .interrupt :: after) =
      (List.replicate (texts.length + 1) ⟨"  ...> ", ""⟩ ++ ({ s with pending := "" }.turns fuel after).1,
        ({ s with pending := "" }.turns fuel after).2) := by
  induction texts generalizing s with
  | nil => exact turns_of_interrupt waits broken after
  | cons line texts ih =>
      have free : s.pending.isEmpty → command? line = none := fun empty =>
        absurd (String.isEmpty_iff.1 empty) (ne_empty_of_incomplete broken)
      have later := ih (s := { s with pending := s.pending ++ line ++ "\n" })
        ⟨waits.running, waits.silent, .inr unfinished.first⟩ unfinished.first unfinished.rest
      rw [List.map_cons, List.cons_append, turns_of_broken waits free unfinished.first, later,
        prompt_of_broken broken]
      rfl

end Cancelled

/-- Lines that break off and are given up leave no trace. Typed at a fresh prompt, the first of them no command and
not blank, they take a turn each, the first under the fresh prompt and all others, like the interrupt after them,
under the one that shows that text is collected. None of these turns writes anything, and all other turns and the
session in the end are those without them. In any run, what is collected at a prompt is nothing or breaks off, and
the prompt tells which. -/
theorem cancelled_leaves_no_trace (fuel : Nat) :
    (∀ (before after : List Input) (s : Session) (line : String) (texts : List String),
      start.prompted? fuel before = some s → s.pending = "" →
      trim line ≠ "" → trim line ∉ commandLines →
      (∀ typed, typed ≠ [] → typed <+: line :: texts → Reader.isIncomplete (lines typed) = true) →
      ∃ earlier : List Turn, earlier.length = before.length ∧
        start.turns fuel (before ++ after) = (earlier ++ (s.turns fuel after).1, (s.turns fuel after).2) ∧
        start.turns fuel (before ++ ((line :: texts).map .line ++ .interrupt :: after)) =
          (earlier ++ (⟨"glisp> ", ""⟩ :: List.replicate (texts.length + 1) ⟨"  ...> ", ""⟩) ++
            (s.turns fuel after).1, (s.turns fuel after).2)) ∧
    ∀ (inputs : List Input) (place : Nat) (turn : Turn), (start.turns fuel inputs).1[place]? = some turn →
      ∃ s, start.prompted? fuel (inputs.take place) = some s ∧ turn.prompt = s.prompt ∧
        (s.pending = "" ∨ Reader.isIncomplete s.pending = true) ∧
        (s.prompt = "glisp> " ↔ s.pending = "") ∧
        (s.prompt = "  ...> " ↔ Reader.isIncomplete s.pending = true) := by
  constructor
  · intro before after s line texts prompted fresh inhabited plain unfinished
    have waits := waits_start.prompted? prompted
    obtain ⟨earlier, long, turns⟩ := exists_turns_append prompted
    refine ⟨earlier, long, turns after, ?_⟩
    have unfinished : Unfinished s.pending (line :: texts) := by
      intro typed some beginning
      rw [fresh, String.empty_append]
      exact unfinished typed some beginning
    have free : s.pending.isEmpty → command? line = none := fun _ =>
      (command?_of_plain plain).trans (if_neg inhabited)
    have later := turns_of_cancelled fuel (s := { s with pending := s.pending ++ line ++ "\n" })
      ⟨waits.running, waits.silent, .inr unfinished.first⟩ unfinished.first unfinished.rest after
    have same : { s with pending := "" } = s := by rw [← fresh]
    dsimp only at later
    rw [turns, List.map_cons, List.cons_append, turns_of_broken waits free unfinished.first, later, same,
      prompt_of_fresh fresh, List.append_assoc]
    rfl
  · intro inputs place turn here
    obtain ⟨s, prompted, same⟩ := exists_prompted_of_turn here
    have waits := waits_start.prompted? prompted
    exact ⟨s, prompted, same, waits.pending, waits.prompt_iff⟩

theorem take_switchStamps (fuel : Nat) {s : Session} (waits : s.Waits) (fresh : s.pending = "") :
    (s.take fuel (.line ":annotate")).flush.2 = { s with annotate := !s.annotate } := by
  have named : command? ":annotate" = some .switchStamps := by decide
  rw [take, if_pos (String.isEmpty_iff.2 fresh), named]
  exact flush_of_silent (s := { s with annotate := !s.annotate }) waits.silent

/-- With stamps switched on, a list is opened and given up on its second line, which only looks like the command
that would end the session. -/
theorem cancelled_of_open_list :
    let before : List Input := [.line ":annotate"]
    let texts := ["(do", " :quit"]
    let after : List Input := [.line "", .line ":annotate"]
    let s : Session := { start with annotate := true }
    start.prompted? 10 before = some s ∧
      (∀ typed, typed ≠ [] → typed <+: texts → Reader.isIncomplete (lines typed) = true) ∧
      ∃ earlier : List Turn, earlier.length = 1 ∧
        start.turns 10 (before ++ after) = (earlier ++ (s.turns 10 after).1, (s.turns 10 after).2) ∧
        start.turns 10 (before ++ (texts.map .line ++ .interrupt :: after)) =
          (earlier ++ [⟨"glisp> ", ""⟩, ⟨"  ...> ", ""⟩, ⟨"  ...> ", ""⟩] ++ (s.turns 10 after).1,
            (s.turns 10 after).2) := by
  intro before texts after s
  have switched : (start.take 10 (.line ":annotate")).flush.2 = s := by
    have taken := take_switchStamps 10 waits_start rfl
    rwa [show start.annotate = false from rfl, Bool.not_false] at taken
  have prompted : start.prompted? 10 before = some s := by
    rw [prompted?_cons (switched ▸ rfl), switched]
    rfl
  have unfinished : ∀ typed, typed ≠ [] → typed <+: texts → Reader.isIncomplete (lines typed) = true := by
    have all : ∀ typed ∈ texts.inits, typed ≠ [] → Reader.isIncomplete (lines typed) = true := by decide
    exact fun typed some beginning => all typed ((List.mem_inits typed texts).2 beginning) some
  exact ⟨prompted, unfinished, (cancelled_leaves_no_trace 10).1 before after s "(do" [" :quit"] prompted rfl
    (by decide) (by decide) unfinished⟩

end Session

end AnnotatedLisp
