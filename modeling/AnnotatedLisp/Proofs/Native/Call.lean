import AnnotatedLisp.Proofs.Native.Conversion

/-!
How the call of a typed operation goes.

The number of the arguments is checked first. Then the leftmost argument that its parameter cannot read is to
blame. Only if there is none the body runs, on what all of them were read as.
-/

namespace AnnotatedLisp

theorem Arity.check_of_accepts {arity : Arity} {got : Nat} (accepted : arity.accepts got = true) :
    arity.check got = .ok () :=
  if_pos accepted

theorem Arity.check_of_not_accepts {arity : Arity} {got : Nat} (refused : ¬ arity.accepts got = true) :
    arity.check got = .error (.arityMismatch arity got) :=
  if_neg refused

namespace Signature

/-- The kind of the parameter that takes the argument in a place. The rest parameter takes all those after the
fixed ones. -/
def kindAt? (signature : Signature) (place : Nat) : Option Param :=
  signature.fixed[place]?.or (signature.rest.map Element.param)

/-- Every argument can be read by the parameter that takes it. -/
def Fits (signature : Signature) (args : List Value) : Prop :=
  ∀ place v, args[place]? = some v → ∃ kind, signature.kindAt? place = some kind ∧ ∃ x, kind.Reads v x

/-- The error of the leftmost argument that cannot be read. -/
def Refuses (signature : Signature) (args : List Value) (error : Error) : Prop :=
  ∃ before v after kind, args = before ++ v :: after ∧ signature.Fits before ∧
    signature.kindAt? before.length = some kind ∧ kind.Refuses v error

/-- What the arguments are read as, in their order. -/
def Reads : (fixed : List Param) → (rest : Option Element) → List Value → Carriers fixed rest → Prop
  | [], none, args, _ => args = []
  | [], some element, args, xs => List.Forall₂ (fun v x => element.project? v = some x) args xs
  | _ :: _, _, [], _ => False
  | param :: fixed, rest, v :: args, xs => param.Reads v xs.1 ∧ Reads fixed rest args xs.2

variable {param : Param} {fixed : List Param} {rest : Option Element} {v : Value} {args : List Value}
  {error : Error}

theorem fits_nil (signature : Signature) : signature.Fits [] :=
  fun place v here => by cases here

theorem fits_cons_iff :
    Fits ⟨param :: fixed, rest⟩ (v :: args) ↔ (∃ x, param.Reads v x) ∧ Fits ⟨fixed, rest⟩ args := by
  constructor
  · intro fits
    obtain ⟨kind, here, reads⟩ := fits 0 v rfl
    cases here
    exact ⟨reads, fun place => fits (place + 1)⟩
  · rintro ⟨first, others⟩ place w here
    cases place with
    | zero =>
        cases here
        exact ⟨param, rfl, first⟩
    | succ place => exact others place w here

theorem refuses_cons_iff :
    Refuses ⟨param :: fixed, rest⟩ (v :: args) error ↔
      param.Refuses v error ∨ (∃ x, param.Reads v x) ∧ Refuses ⟨fixed, rest⟩ args error := by
  constructor
  · rintro ⟨before, w, after, kind, split, fits, here, refused⟩
    cases before with
    | nil =>
        cases split
        cases here
        exact .inl refused
    | cons first before =>
        cases split
        obtain ⟨reads, fits⟩ := fits_cons_iff.1 fits
        exact .inr ⟨reads, before, w, after, kind, rfl, fits, here, refused⟩
  · rintro (refused | ⟨reads, before, w, after, kind, rfl, fits, here, refused⟩)
    · exact ⟨[], v, args, param, rfl, fits_nil _, rfl, refused⟩
    · exact ⟨v :: before, w, after, kind, rfl, fits_cons_iff.2 ⟨reads, fits⟩, here, refused⟩

section Rest

variable {element : Element}

theorem fits_rest_iff : Fits ⟨[], some element⟩ args ↔ ∀ v ∈ args, ∃ x, element.project? v = some x := by
  constructor
  · intro fits v mem
    obtain ⟨place, here⟩ := List.mem_iff_getElem?.1 mem
    obtain ⟨kind, taken, reads⟩ := fits place v here
    cases taken
    exact Element.exists_reads_iff.1 reads
  · intro fits place v here
    exact ⟨element.param, rfl, Element.exists_reads_iff.2 (fits v (List.mem_of_getElem? here))⟩

theorem refuses_rest_iff :
    Refuses ⟨[], some element⟩ args error ↔ element.convertAll args = .error error := by
  rw [Element.convertAll_eq_error_iff]
  constructor
  · rintro ⟨before, v, after, kind, split, fits, here, refused⟩
    cases here
    obtain ⟨other, told⟩ := Element.param_refuses_iff.1 refused
    exact ⟨before, v, after, split, fits_rest_iff.1 fits, other, told⟩
  · rintro ⟨before, v, after, split, fit, other, told⟩
    exact ⟨before, v, after, element.param, split, fits_rest_iff.2 fit, rfl,
      Element.param_refuses_iff.2 ⟨other, told⟩⟩

end Rest

/-- The parameters can take so many arguments. -/
def Counts (signature : Signature) (got : Nat) : Prop :=
  signature.arity.accepts got = true

theorem counts_cons_iff {got : Nat} : Counts ⟨param :: fixed, rest⟩ (got + 1) ↔ Counts ⟨fixed, rest⟩ got := by
  cases rest <;> simp [Counts, arity, Arity.accepts]

theorem not_counts_zero : ¬ Counts ⟨param :: fixed, rest⟩ 0 := by
  cases rest <;> simp [Counts, arity, Arity.accepts]

theorem convertArgs_eq_ok_iff {xs : Carriers fixed rest} (counted : Counts ⟨fixed, rest⟩ args.length) :
    convertArgs fixed rest args = .ok xs ↔ Reads fixed rest args xs := by
  induction fixed generalizing args with
  | nil =>
      cases rest with
      | none =>
          have empty : args = [] := by simpa [Counts, arity, Arity.accepts] using counted
          exact ⟨fun _ => empty, fun _ => rfl⟩
      | some element => exact Element.convertAll_eq_ok_iff
  | cons param fixed ih =>
      cases args with
      | nil => exact absurd counted not_counts_zero
      | cons v args =>
          obtain ⟨x, xs⟩ := xs
          rw [convertArgs, Reads, ← Param.convert_eq_ok_iff, ← ih (counts_cons_iff.1 counted)]
          cases param.convert v with
          | error error => exact ⟨nofun, fun h => nomatch h.1⟩
          | ok first =>
              cases convertArgs fixed rest args with
              | error error => exact ⟨nofun, fun h => nomatch h.2⟩
              | ok others => simp [bind, Except.bind, pure, Except.pure]

theorem convertArgs_eq_error_iff (counted : Counts ⟨fixed, rest⟩ args.length) :
    convertArgs fixed rest args = .error error ↔ Refuses ⟨fixed, rest⟩ args error := by
  induction fixed generalizing args with
  | nil =>
      cases rest with
      | none =>
          obtain rfl : args = [] := by simpa [Counts, arity, Arity.accepts] using counted
          exact ⟨nofun, fun ⟨before, _, _, _, split, _⟩ => by cases before <;> cases split⟩
      | some element => exact refuses_rest_iff.symm
  | cons param fixed ih =>
      cases args with
      | nil => exact absurd counted not_counts_zero
      | cons v args =>
          rw [convertArgs, refuses_cons_iff, ← Param.convert_eq_error_iff, ← ih (counts_cons_iff.1 counted)]
          simp only [← Param.convert_eq_ok_iff]
          cases param.convert v with
          | error own => simp [bind, Except.bind]
          | ok first =>
              cases convertArgs fixed rest args with
              | error own => simp [bind, Except.bind]
              | ok others => simp [bind, Except.bind, pure, Except.pure]

theorem fits_of_reads {xs : Carriers fixed rest} (reads : Reads fixed rest args xs) :
    Fits ⟨fixed, rest⟩ args := by
  induction fixed generalizing args with
  | nil =>
      cases rest with
      | none => exact reads ▸ fits_nil _
      | some element =>
          refine fits_rest_iff.2 ?_
          have yields : List.Forall₂ (fun v x => element.project? v = some x) args xs := reads
          induction yields with
          | nil => exact nofun
          | cons first _ ih => exact List.forall_mem_cons.2 ⟨⟨_, first⟩, ih ‹_›⟩
  | cons param fixed ih =>
      cases args with
      | nil => exact fits_nil _
      | cons v args => exact fits_cons_iff.2 ⟨⟨xs.1, reads.1⟩, ih reads.2⟩

theorem Refuses.not_fits {signature : Signature} (refused : signature.Refuses args error) :
    ¬ signature.Fits args := by
  obtain ⟨before, v, after, kind, rfl, _, here, refused⟩ := refused
  intro fits
  obtain ⟨own, taken, x, reads⟩ := fits before.length v (by simp)
  cases here.symm.trans taken
  exact refused.not_reads x reads

section Checks

variable {signature : Signature}

theorem convert_of_counted (counted : signature.Counts args.length) :
    signature.convert args = convertArgs signature.fixed signature.rest args := by
  rw [convert, Arity.check_of_accepts counted]
  rfl

theorem convert_of_miscounted (miscounted : ¬ signature.Counts args.length) :
    signature.convert args = .error (.arityMismatch signature.arity args.length) := by
  rw [convert, Arity.check_of_not_accepts miscounted]
  rfl

theorem convert_eq_ok_iff {xs : signature.Args} (counted : signature.Counts args.length) :
    signature.convert args = .ok xs ↔ Reads signature.fixed signature.rest args xs := by
  rw [convert_of_counted counted, convertArgs_eq_ok_iff counted]

theorem convert_eq_error_iff (counted : signature.Counts args.length) :
    signature.convert args = .error error ↔ signature.Refuses args error := by
  rw [convert_of_counted counted, convertArgs_eq_error_iff counted]

/-- A conversion never fails for the number of arguments when they are as many as there are parameters. -/
theorem convert_eq_mismatch_iff :
    signature.convert args = .error (.arityMismatch signature.arity args.length) ↔
      ¬ signature.Counts args.length := by
  refine ⟨fun failed counted => ?_, convert_of_miscounted⟩
  obtain ⟨_, _, _, _, _, _, _, refused⟩ := (convert_eq_error_iff counted).1 failed
  obtain ⟨text, told⟩ := refused.exists_text
  cases told

/-- All arguments are read, or one of them is refused. -/
theorem reads_or_refuses (counted : signature.Counts args.length) :
    (signature.Fits args → ∃ xs, Reads signature.fixed signature.rest args xs) ∧
    (¬ signature.Fits args → ∃ text, signature.Refuses args (.typeError text)) := by
  cases converted : signature.convert args with
  | ok xs =>
      have reads := (convert_eq_ok_iff counted).1 converted
      exact ⟨fun _ => ⟨xs, reads⟩, fun misfit => absurd (fits_of_reads reads) misfit⟩
  | error error =>
      have refused := (convert_eq_error_iff counted).1 converted
      refine ⟨fun fits => absurd fits refused.not_fits, fun _ => ?_⟩
      obtain ⟨_, _, _, _, _, _, _, told⟩ := id refused
      obtain ⟨text, rfl⟩ := told.exists_text
      exact ⟨text, refused⟩

end Checks

/-- What a call with the arguments comes to, given the body of the operation. The body is run on what the arguments
are read as, and only if there are as many of them as have to be and each can be read. -/
structure Checks (signature : Signature) (counted : Prop) (args : List Value)
    (call : (signature.Args → Eval Value) → Eval Value) : Prop where
  converts_iff : signature.convert args = .error (.arityMismatch signature.arity args.length) ↔ ¬ counted
  miscounted : ¬ counted → ∀ body, call body = Eval.raise (.arityMismatch signature.arity args.length)
  unfit : counted → ¬ signature.Fits args → ∃ text, signature.Refuses args (.typeError text)
  refused : counted → ∀ error, signature.Refuses args error → ∀ body, call body = Eval.raise error
  fit : counted → signature.Fits args → ∃ xs, Reads signature.fixed signature.rest args xs
  read : counted → ∀ xs, Reads signature.fixed signature.rest args xs → ∀ body, call body = body xs

theorem checks_of_convert {signature : Signature} {call : (signature.Args → Eval Value) → Eval Value}
    (calls : ∀ body, call body = Eval.ofExcept (signature.convert args) >>= body) :
    signature.Checks (signature.Counts args.length) args call where
  converts_iff := convert_eq_mismatch_iff
  miscounted miscounted body := by
    rw [calls, convert_of_miscounted miscounted]
    rfl
  unfit counted := (reads_or_refuses counted).2
  refused counted error refused body := by
    rw [calls, (convert_eq_error_iff counted).2 refused]
    rfl
  fit counted := (reads_or_refuses counted).1
  read counted xs reads body := by
    rw [calls, (convert_eq_ok_iff counted).2 reads]
    rfl

end Signature

namespace Operation

variable {operation : Operation} {args : List Value}

theorem call_of_accepted (accepted : operation.arity.accepts args.length = true) :
    operation.call args = Eval.ofExcept (operation.signature.convert args) >>= operation.body := by
  rw [call, Arity.check_of_accepts accepted]
  rfl

theorem call_of_not_accepted (refused : ¬ operation.arity.accepts args.length = true) :
    operation.call args = Eval.raise (.arityMismatch operation.arity args.length) := by
  rw [call, Arity.check_of_not_accepts refused]
  rfl

/-- The calls of typed operations. One with fixed parameters takes exactly as many arguments as it has parameters.
One with a rest parameter takes at least as many as it has fixed parameters; before that is checked, the number of
arguments is held against the arity that the operation was registered with. -/
theorem typed_call (args : List Value) :
    (∀ params : List Param,
      Signature.Checks ⟨params, none⟩ (args.length = params.length) args fun body =>
        (Operation.fixed params body).call args) ∧
    ∀ (arity : Arity) (params : List Param) (rest : Element),
      (arity.accepts args.length = false → ∀ body,
        (Operation.variadic arity params rest body).call args =
          Eval.raise (.arityMismatch arity args.length)) ∧
      (arity.accepts args.length = true →
        Signature.Checks ⟨params, some rest⟩ (params.length ≤ args.length) args fun body =>
          (Operation.variadic arity params rest body).call args) := by
  constructor
  · intro params
    have counted : Signature.Counts ⟨params, none⟩ args.length = (args.length = params.length) := by
      simp [Signature.Counts, Signature.arity, Arity.accepts]
    rw [← counted]
    refine Signature.checks_of_convert fun body => ?_
    by_cases accepted : Signature.Counts ⟨params, none⟩ args.length
    · exact call_of_accepted accepted
    · -- The number of arguments is checked twice, and is told in the same words both times.
      have told : (Operation.fixed params body).call args =
          Eval.raise (.arityMismatch (.exact params.length) args.length) := call_of_not_accepted accepted
      rw [told, Signature.convert_of_miscounted accepted]
      rfl
  · intro arity params rest
    have counted : Signature.Counts ⟨params, some rest⟩ args.length = (params.length ≤ args.length) := by
      simp [Signature.Counts, Signature.arity, Arity.accepts]
    refine ⟨fun refused body => call_of_not_accepted (by simp [variadic, refused]), fun accepted => ?_⟩
    rw [← counted]
    exact Signature.checks_of_convert fun body => call_of_accepted accepted

/-- An operation on a truth value, a sequence of numbers and any number of strings, registered for at least one
argument. Of `(1 "a" nil)` the string is to blame, not `nil`, and neither is the argument after it. -/
theorem typed_call_of_misfits :
    let operation : Operation := .variadic (.atLeast 1) [.boolean, .sequence .number] .string
      fun (_, _, texts) => return .string (String.join texts)
    operation.call [] = Eval.raise (.arityMismatch (.atLeast 1) 0) ∧
      operation.call [.bool true] = Eval.raise (.arityMismatch (.atLeast 2) 1) ∧
      operation.call [.bool true, .seq 0 .list [.number 1, .string "a", .nil], .nil] =
        Eval.raise (.expected "number" (.string "a")) ∧
      operation.call [.bool true, .nil, .string "x", .string "y"] = return .string "xy" := by
  intro operation
  have calls (args : List Value) := (typed_call args).2 (.atLeast 1) [.boolean, .sequence .number] .string
  refine ⟨(calls []).1 rfl _, ((calls [.bool true]).2 rfl).miscounted (by decide) _, ?_, ?_⟩
  · have fits : Signature.Fits ⟨[.boolean, .sequence .number], some .string⟩ [.bool true] :=
      Signature.fits_cons_iff.2 ⟨⟨true, rfl⟩, Signature.fits_nil _⟩
    have elements : Form.elements? (.seq 0 .list [.number 1, .string "a", .nil] : Value) =
        some ([.number 1] ++ .string "a" :: [.nil]) := rfl
    have refused : Param.Refuses (.sequence .number) _ _ :=
      .element elements (List.forall_mem_singleton.2 ⟨1, rfl⟩) rfl
    exact ((calls _).2 rfl).refused (by decide) _ ⟨[.bool true], _, [.nil], _, rfl, fits, rfl, refused⟩ _
  · exact ((calls [.bool true, .nil, .string "x", .string "y"]).2 rfl).read (by decide) (true, [], ["x", "y"])
      ⟨rfl, ⟨[], rfl, .nil⟩, .cons rfl (.cons rfl .nil)⟩ _

end Operation

end AnnotatedLisp
