import AnnotatedLisp.Proofs.Reader.Continuation
import AnnotatedLisp.Session.Turn
import Mathlib.Data.List.TakeWhile

/-!
A session evaluates the program that is typed into it.

Where a session cuts the lines into texts depends on every beginning of the program: a text is evaluated as
soon as it is not incomplete, and blank lines are dropped only while nothing is collected. Reading goes
on at the end of a line, so the texts give the same forms as the program read at once. Nothing here
depends on what the forms evaluate to.
-/

namespace AnnotatedLisp

namespace Session

/-- The lines that a session obeys while nothing is collected. -/
def commandLines : List String :=
  [":help", ":env", ":annotate", ":quit", ":exit"]

/-- The text that a session evaluates when it takes an input, if it evaluates one. -/
def submission? (s : Session) : Input → Option String
  | .line line =>
    if s.pending.isEmpty && (command? line).isSome then none
    else
      let text := s.pending ++ line ++ "\n"
      if Reader.isIncomplete text then none else some text
  | .interrupt | .endOfInput | .failure _ => none

/-- The texts that a session evaluates in its turns over the inputs. -/
def submissions (fuel : Nat) (s : Session) : List Input → List String
  | [] => []
  | input :: inputs =>
    let next := (s.take fuel input).flush.2
    (s.submission? input).toList ++ if next.running then submissions fuel next inputs else []

/-- The session after it has evaluated a text: nothing is collected, and the history has one more entry. -/
def evaluated (fuel : Nat) (s : Session) (text : String) : Session :=
  { s with
    store :=
      match submit fuel s.annotate s.scope text s.store with
      | .ok _ store => store
      | .error _ store => store
    pending := ""
    history := trimEnd text :: s.history }

/-- The session after it has evaluated the texts one after the other. -/
def evaluatedAll (fuel : Nat) (s : Session) (texts : List String) : Session :=
  texts.foldl (fun s text => (s.evaluated fuel text).flush.2) s

section Steps

variable (fuel : Nat) (s : Session)

theorem submission?_line {s : Session} {line : String}
    (uncommanded : s.pending.isEmpty → command? line = none) :
    s.submission? (.line line) =
      if Reader.isIncomplete (s.pending ++ line ++ "\n") then none
      else some (s.pending ++ line ++ "\n") := by
  refine if_neg fun commanded => ?_
  obtain ⟨fresh, some⟩ := Bool.and_eq_true_iff.1 commanded
  rw [uncommanded fresh] at some
  cases some

theorem take_line {line : String} (uncommanded : s.pending.isEmpty → command? line = none) :
    s.take fuel (.line line) = s.collect fuel line := by
  have free : (if s.pending.isEmpty then command? line else none) = none := by
    split
    next fresh => exact uncommanded fresh
    next => rfl
  rw [take, free]

variable {s}

theorem collect_of_incomplete {line : String}
    (incomplete : Reader.isIncomplete (s.pending ++ line ++ "\n") = true) :
    s.collect fuel line = { s with pending := s.pending ++ line ++ "\n" } := by
  simp only [collect, incomplete, if_true]

theorem collect_of_complete {line : String}
    (complete : Reader.isIncomplete (s.pending ++ line ++ "\n") = false) :
    s.collect fuel line = s.evaluated fuel (s.pending ++ line ++ "\n") := by
  simp only [collect, complete, Bool.false_eq_true, if_false]
  rfl

/-- Taking an input is evaluating the text that it submits. -/
theorem take_of_submission {input : Input} {text : String} (h : s.submission? input = some text) :
    s.take fuel input = s.evaluated fuel text := by
  cases input with
  | line line =>
      simp only [submission?] at h
      split at h
      · cases h
      next free =>
        split at h
        · cases h
        next complete =>
          cases h
          rw [take_line fuel s (by simpa using free),
            collect_of_complete fuel (Bool.eq_false_iff.2 complete)]
  | interrupt | endOfInput | failure => cases h

/-- An input that submits nothing leaves the scopes and the history alone. -/
theorem take_of_no_submission {input : Input} (h : s.submission? input = none) :
    (s.take fuel input).history = s.history ∧
      (s.take fuel input).store.scopes = s.store.scopes := by
  cases input with
  | line line =>
      simp only [submission?] at h
      split at h
      next commanded =>
        obtain ⟨fresh, some⟩ := Bool.and_eq_true_iff.1 commanded
        obtain ⟨command, named⟩ := Option.isSome_iff_exists.1 some
        simp only [take, fresh, if_true, named]
        cases command <;> exact ⟨rfl, rfl⟩
      next free =>
        split at h
        next incomplete =>
          rw [take_line fuel s (by simpa using free), collect_of_incomplete fuel incomplete]
          exact ⟨rfl, rfl⟩
        · cases h
  | interrupt =>
      rw [take]
      split <;> exact ⟨rfl, rfl⟩
  | endOfInput | failure => exact ⟨rfl, rfl⟩

theorem evaluatedAll_history (s : Session) (texts : List String) :
    (s.evaluatedAll fuel texts).history = (texts.map trimEnd).reverse ++ s.history := by
  induction texts generalizing s with
  | nil => rfl
  | cons text texts ih =>
      refine (ih (s.evaluated fuel text).flush.2).trans ?_
      rw [List.map_cons, List.reverse_cons, List.append_assoc]
      rfl

theorem evaluatedAll_pending {s : Session} (texts : List String) (fresh : s.pending = "") :
    (s.evaluatedAll fuel texts).pending = "" := by
  induction texts generalizing s with
  | nil => exact fresh
  | cons text texts ih => exact ih (s := (s.evaluated fuel text).flush.2) rfl

end Steps

section Blank

theorem run_blank {s : Reader.State} (mode : s.mode = .blank) {text : List Char}
    (blank : ∀ c ∈ text, isBlank c = true) :
    Reader.run .allForms s text = .ok { s with offset := s.offset + text.length } := by
  induction text generalizing s with
  | nil => rfl
  | cons c text ih =>
      have separates : Token.isSeparator c = true := by
        rw [Token.isSeparator, blank c List.mem_cons_self, Bool.true_or]
      have step : s.step .allForms c = .ok s.advance := by
        rw [Reader.State.step, mode]
        exact if_pos separates
      rw [Reader.run_cons, step]
      refine (ih (s := s.advance) mode fun c mem => blank c (List.mem_cons_of_mem _ mem)).trans ?_
      simp only [Reader.State.advance, List.length_cons, Nat.add_assoc, Nat.add_comm 1]

theorem isBlank_of_trim_eq_empty {line : String} (h : trim line = "") :
    ∀ c ∈ line.toList, isBlank c = true := by
  have trimmed : ((line.toList.dropWhile isBlank).reverse.dropWhile isBlank).reverse = [] := by
    simpa [trim, trimEnd] using congrArg String.toList h
  intro c mem
  rw [← List.takeWhile_append_dropWhile (p := isBlank) (l := line.toList), List.mem_append] at mem
  obtain front | rest := mem
  · exact List.mem_takeWhile_imp front
  · exact List.dropWhile_eq_nil_iff.1 (List.reverse_eq_nil_iff.1 trimmed) c (List.mem_reverse.2 rest)

theorem readAll_of_blank {line : String} (h : trim line = "") :
    Reader.readAll (line ++ "\n") = .ok [] := by
  have blank : ∀ c ∈ (line ++ "\n").toList, isBlank c = true := by
    intro c mem
    rw [Reader.toList_lineFeed, List.mem_append, List.mem_singleton] at mem
    obtain mem | rfl := mem
    · exact isBlank_of_trim_eq_empty h c mem
    · decide
  rw [Reader.readAll_eq_ok, Reader.scan, run_blank rfl blank]
  rfl

end Blank

section Runs

variable (fuel : Nat)

theorem flush_of_silent {s : Session} (silent : s.store.output = "") : s.flush.2 = s := by
  obtain ⟨⟨scopes, nextNode, stamps, output⟩, scope, annotate, pending, history, running⟩ := s
  obtain rfl : output = "" := silent
  rfl

theorem lines_cons (line : String) (texts : List String) :
    lines (line :: texts) = line ++ "\n" ++ lines texts := by
  rw [lines, lines, List.map_cons, String.join_cons]

theorem turns_cons (s : Session) (input : Input) (inputs : List Input)
    (running : (s.take fuel input).flush.2.running = true) :
    s.turns fuel (input :: inputs) =
      (⟨s.prompt, (s.take fuel input).flush.1⟩ :: ((s.take fuel input).flush.2.turns fuel inputs).1,
        ((s.take fuel input).flush.2.turns fuel inputs).2) := by
  rw [turns]
  simp only [running, if_true]

theorem submissions_cons (s : Session) (input : Input) (inputs : List Input)
    (running : (s.take fuel input).flush.2.running = true) :
    s.submissions fuel (input :: inputs) =
      (s.submission? input).toList ++ (s.take fuel input).flush.2.submissions fuel inputs := by
  rw [submissions]
  simp only [running, if_true]

/-- The turns of a session over the lines evaluate texts that hold the forms, and come to what evaluating
these texts comes to. -/
def Reads (fuel : Nat) (s : Session) (inputs : List Input) (forms : List Datum) : Prop :=
  (∃ parts : List (List Datum), (s.submissions fuel inputs).map Reader.readAll = parts.map .ok ∧
    parts.flatten = forms) ∧
  (s.turns fuel inputs).2 =
    ((evaluatedAll fuel { s with pending := "" } (s.submissions fuel inputs)).take fuel
      .endOfInput).flush.2

variable {fuel} {s : Session} {input : Input} {inputs : List Input} {forms : List Datum}

theorem Reads.of_submission {text : String} {more : List Datum} (running : s.running = true)
    (submits : s.submission? input = some text) (read : Reader.readAll text = .ok forms)
    (rest : Reads fuel (s.evaluated fuel text).flush.2 inputs more) :
    Reads fuel s (input :: inputs) (forms ++ more) := by
  have taken := take_of_submission fuel submits
  obtain ⟨⟨parts, reads, whole⟩, ended⟩ := rest
  rw [Reads, turns_cons fuel s input inputs (by rw [taken]; exact running),
    submissions_cons fuel s input inputs (by rw [taken]; exact running), taken, submits]
  refine ⟨⟨forms :: parts, ?_, ?_⟩, ended⟩
  · exact congrArg₂ List.cons read reads
  · rw [List.flatten_cons, whole]

/-- A turn that submits nothing and leaves everything but what is collected alone. -/
theorem Reads.of_no_submission {next : Session} (submits : s.submission? input = none)
    (taken : (s.take fuel input).flush.2 = next) (running : next.running = true)
    (same : { next with pending := "" } = { s with pending := "" })
    (rest : Reads fuel next inputs forms) : Reads fuel s (input :: inputs) forms := by
  subst taken
  rw [Reads, turns_cons fuel s input inputs running, submissions_cons fuel s input inputs running,
    submits, ← same]
  exact rest

/-- A text that is not incomplete, and that a continuation makes readable, is read on its own. -/
theorem readAll_split {a b : String} (read : Reader.readAll (a ++ "\n" ++ b) = .ok forms)
    (complete : Reader.isIncomplete (a ++ "\n") = false) :
    ∃ first rest, Reader.readAll (a ++ "\n") = .ok first ∧ Reader.readAll b = .ok rest ∧
      forms = first ++ rest := by
  cases here : Reader.readAll (a ++ "\n") with
  | error error =>
      have kind : error.kind ≠ .incomplete := by
        intro incomplete
        rw [Reader.isIncomplete, here] at complete
        simp [incomplete] at complete
      obtain ⟨error', failed, _⟩ := Reader.readAll_append_error here kind b
      rw [failed] at read
      cases read
  | ok first =>
      obtain ⟨whole, fails⟩ := Reader.readAll_append (b := b) here
      cases after : Reader.readAll b with
      | error error =>
          obtain ⟨error', failed, _⟩ := fails error after
          rw [failed] at read
          cases read
      | ok rest =>
          rw [(whole rest).2 after] at read
          exact ⟨first, rest, rfl, rfl, (Except.ok.inj read).symm⟩

theorem command?_of_plain {line : String} (plain : trim line ∉ commandLines) :
    command? line = if trim line = "" then some .nothing else none := by
  rw [command?.eq_def]
  split <;> simp_all [commandLines]

theorem reads_of_lines {texts : List String} (plain : ∀ line ∈ texts, trim line ∉ commandLines)
    (running : s.running = true) (silent : s.store.output = "")
    (broken : s.pending = "" ∨ Reader.isIncomplete s.pending = true)
    (read : Reader.readAll (s.pending ++ lines texts) = .ok forms) :
    Reads fuel s (texts.map .line) forms := by
  induction texts generalizing s forms with
  | nil =>
      have fresh : s.pending = "" := by
        refine broken.resolve_right fun incomplete => ?_
        rw [lines, List.map_nil, String.join_nil, String.append_empty] at read
        rw [Reader.isIncomplete, read] at incomplete
        cases incomplete
      have same : { s with pending := "" } = s := by rw [← fresh]
      rw [fresh] at read
      cases read
      refine ⟨⟨[], rfl, rfl⟩, ?_⟩
      rw [same]
      rfl
  | cons line texts ih =>
      have plain' := fun line mem => plain line (List.mem_cons_of_mem _ mem)
      have command := command?_of_plain (plain line List.mem_cons_self)
      rw [List.map_cons]
      rw [lines_cons, ← String.append_assoc, ← String.append_assoc] at read
      by_cases dropped : s.pending = "" ∧ trim line = ""
      · -- A blank line at a fresh prompt is dropped; it holds no form.
        obtain ⟨fresh, blank⟩ := dropped
        rw [if_pos blank] at command
        have holds := readAll_of_blank blank
        rw [fresh, String.empty_append] at read
        obtain ⟨first, rest, here, after, rfl⟩ := readAll_split read (by rw [Reader.isIncomplete, holds])
        obtain rfl : [] = first := Except.ok.inj (holds.symm.trans here)
        refine Reads.of_no_submission ?_ ?_ running rfl (ih plain' running silent (.inl fresh) ?_)
        · simp [submission?, fresh, command]
        · rw [take, fresh, command]
          exact flush_of_silent silent
        · rw [fresh, String.empty_append]
          exact after
      · have free : s.pending.isEmpty → command? line = none := by
          intro fresh
          rw [command, if_neg fun blank => dropped ⟨String.isEmpty_iff.1 fresh, blank⟩]
        have taken := take_line fuel s free
        have submits := submission?_line free
        cases broken' : Reader.isIncomplete (s.pending ++ line ++ "\n") with
        | true =>
            rw [broken', if_pos rfl] at submits
            rw [collect_of_incomplete fuel broken'] at taken
            have next : (s.take fuel (.line line)).flush.2 =
                { s with pending := s.pending ++ line ++ "\n" } := by
              rw [taken]
              exact flush_of_silent silent
            exact Reads.of_no_submission submits next running rfl
              (ih plain' running silent (.inr broken') read)
        | false =>
            rw [broken', if_neg Bool.false_ne_true] at submits
            obtain ⟨first, rest, here, after, rfl⟩ := readAll_split read broken'
            refine Reads.of_submission running submits here ?_
            refine ih (s := (s.evaluated fuel _).flush.2) plain' running rfl (.inl rfl) ?_
            rw [evaluated, flush, String.empty_append]
            exact after

/-- Typing a program line by line, none of them a command, evaluates the program: each text that is
submitted is read, together they hold the forms of the program in order, and each has one entry in the
history. In the end nothing is collected, and all that has happened is that these texts were evaluated one
after the other. -/
theorem submissions_read (fuel : Nat) (texts : List String)
    (plain : ∀ line ∈ texts, trim line ∉ commandLines) (forms : List Datum)
    (read : Reader.readAll (lines texts) = .ok forms) :
    (∃ parts : List (List Datum),
      (start.submissions fuel (texts.map .line)).map Reader.readAll = parts.map .ok ∧
      parts.flatten = forms) ∧
    (start.turns fuel (texts.map .line)).2.history.reverse =
      (start.submissions fuel (texts.map .line)).map trimEnd ∧
    (start.turns fuel (texts.map .line)).2.pending = "" ∧
    (start.turns fuel (texts.map .line)).2 =
      ((start.evaluatedAll fuel (start.submissions fuel (texts.map .line))).take fuel
        .endOfInput).flush.2 := by
  have whole : Reader.readAll (start.pending ++ lines texts) = .ok forms := by
    rw [show start.pending = "" from rfl, String.empty_append]
    exact read
  have reads : Reads fuel start (texts.map .line) forms :=
    reads_of_lines plain rfl rfl (.inl rfl) whole
  obtain ⟨parts, ended⟩ := reads
  refine ⟨parts, ?_, ?_, ended⟩
  · rw [ended]
    change (evaluatedAll fuel start _).history.reverse = _
    rw [evaluatedAll_history, List.reverse_append, List.reverse_reverse]
    rfl
  · rw [ended]
    exact evaluatedAll_pending fuel _ rfl

/-- Three forms on five lines, the second and the fourth of them empty, make two texts. The last form is
thrown and not caught. -/
theorem submissions_of_program :
    let texts := ["(def x", "", ":a) x", "", "(throw x)"]
    let forms : List Datum :=
      [.seq () .list [.symbol "def", .symbol "x", .keyword "a"], .symbol "x",
        .seq () .list [.symbol "throw", .symbol "x"]]
    (∀ line ∈ texts, trim line ∉ commandLines) ∧ Reader.readAll (lines texts) = .ok forms ∧
      start.submissions 10 (texts.map .line) = ["(def x\n\n:a) x\n", "(throw x)\n"] ∧
      (start.turns 10 (texts.map .line)).2.history.reverse =
        ["(def x\n\n:a) x", "(throw x)"] ∧
      (start.turns 10 (texts.map .line)).2.pending = "" := by
  intro texts forms
  have plain : ∀ line ∈ texts, trim line ∉ commandLines := by decide
  have read : Reader.readAll (lines texts) = .ok forms := by
    dsimp only [texts, forms]
    rfl
  have submitted : start.submissions 10 (texts.map .line) = ["(def x\n\n:a) x\n", "(throw x)\n"] := rfl
  obtain ⟨_, history, pending, _⟩ := submissions_read 10 texts plain forms read
  rw [submitted] at history
  exact ⟨plain, read, submitted, history, pending⟩

end Runs

end Session

end AnnotatedLisp
