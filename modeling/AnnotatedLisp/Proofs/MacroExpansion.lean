import AnnotatedLisp.Proofs.Fuel

/-!
Macro expansion ends at a fixed point, and evaluation begins with it.

Each expansion runs the body of a macro, which may define, redefine or hide macros, so that a form is
no macro call is a fact on the store that the expansion leaves. There, expanding once more changes
nothing: evaluating a form is evaluating what it expands into, in that store. No stamps are made here.
-/

namespace AnnotatedLisp

open Eval Filter

/-- The parameters, the body and the scope of the macro that a form calls, if it is a macro call. -/
def Store.calledMacro? (s : Store) (scope : ScopeId) (form : Value) :
    Option (Value × Value × ScopeId) :=
  match Expansion.callHead? form with
  | none => none
  | some name =>
    match s.lookup name scope with
    | some (.fn _ params body outer true) => some (params, body, outer)
    | _ => none

/-- The evaluator of a run that has so much fuel left. -/
abbrev Run.evaluatorAt (host : Host) (fuel : Nat) : Evaluator :=
  Run.evaluator host fuel (Run.loop host fuel)

/-- What is left of a run after a step. -/
def Run.afterStep (host : Host) (fuel : Nat) (ctx : Context) : Step → Eval Value
  | .done value => pure value
  | .tail form scope => Run.loop host fuel ctx [] form scope

variable {host : Host} {ctx : Context} {scope : ScopeId}

theorem stamp_of_off (off : ctx.annotate = false) (node : NodeId) (change : Stamps → Stamps) :
    ctx.stamp node change = pure () := by
  rw [Context.stamp, off]
  rfl

theorem stampForm_of_off (off : ctx.annotate = false) (form : Value) (change : Stamps → Stamps) :
    ctx.stampForm form change = pure () := by
  rw [Context.stampForm]
  cases form.nodeLabel? with
  | some node => exact stamp_of_off off node change
  | none => rfl

namespace Expansion

variable {enter : Context → Value → ScopeId → Eval Value} {s t : Store} {form g : Value}

/-- One round of expansion: a macro call goes on with what its macro makes of it, any other form is
the end. -/
theorem run_succ (off : ctx.annotate = false) (fuel : Nat) (form : Value) (s : Store) :
    run enter ctx scope (fuel + 1) form s =
      match s.calledMacro? scope form with
      | none => .ok form s
      | some (params, body, outer) =>
        (do let inner ← Params.newScope outer params (callArgs form)
            let expanded ← enter ctx.nested body inner
            run enter ctx scope fuel expanded) s := by
  rw [run.eq_def, Store.calledMacro?]
  dsimp only
  cases callHead? form with
  | none => rfl
  | some name =>
      dsimp only
      rw [bind_of_ok (lookup?_apply scope name s)]
      cases s.lookup name scope with
      | none => rfl
      | some binding =>
          dsimp only
          rw [stampForm_of_off off, pure_bind_apply]
          cases binding with
          | fn label params body outer isMacro => cases isMacro <;> rfl
          | _ => rfl

theorem run_of_plain (off : ctx.annotate = false) (plain : s.calledMacro? scope form = none)
    (fuel : Nat) : run enter ctx scope (fuel + 1) form s = .ok form s := by
  rw [run_succ off, plain]

/-- The form that expansion ends at is no macro call in the store that it leaves. -/
theorem calledMacro?_of_run (off : ctx.annotate = false) {fuel : Nat}
    (ends : run enter ctx scope fuel form s = .ok g t) : t.calledMacro? scope g = none := by
  induction fuel generalizing form s with
  | zero => cases ends
  | succ fuel ih =>
      rw [run_succ off] at ends
      cases called : s.calledMacro? scope form with
      | none =>
          simp only [called] at ends
          cases ends
          exact called
      | some parts =>
          obtain ⟨params, body, outer⟩ := parts
          simp only [called] at ends
          obtain ⟨inner, u, _, ends⟩ := bind_eq_ok_iff.1 ends
          obtain ⟨expanded, v, _, ends⟩ := bind_eq_ok_iff.1 ends
          exact ih ends

end Expansion

theorem calledMacro?_of_not_list {s : Store} {form : Value} (atom : form.isList = false) :
    s.calledMacro? scope form = none := by
  rw [Store.calledMacro?]
  cases form with
  | seq node kind items =>
      cases kind with
      | list => cases atom
      | vector => rfl
  | _ => rfl

/-- Without stamps, resolving a list is expanding it. There is nothing to resolve in other forms. -/
theorem resolve_eq (off : ctx.annotate = false) (fuel : Nat) (form : Value) :
    (Run.evaluatorAt host fuel).resolve ctx scope form =
      if form.isList then macroexpand host fuel ctx form scope else pure form := by
  cases form with
  | seq node kind items =>
      cases kind with
      | list =>
          change ((macroexpand host fuel ctx (.seq node .list items) scope) >>= fun expanded =>
            if !Value.isSameNode expanded (.seq node .list items) then
              ctx.stamp node (fun stamps => { stamps with expansion := some expanded }) >>=
                fun _ => pure expanded
            else pure expanded) = macroexpand host fuel ctx (.seq node .list items) scope
          conv => rhs; rw [← bind_pure (macroexpand host fuel ctx (.seq node .list items) scope)]
          congr 1
          funext expanded
          rw [stamp_of_off off]
          split <;> rfl
      | vector => rfl
  | _ => rfl

theorem resolve_eq_macroexpand (off : ctx.annotate = false) (fuel : Nat) (form : Value) (s : Store) :
    (Run.evaluatorAt host (fuel + 1)).resolve ctx scope form s =
      macroexpand host (fuel + 1) ctx form scope s := by
  rw [resolve_eq off]
  cases list : form.isList with
  | true => rfl
  | false => exact (Expansion.run_of_plain off (calledMacro?_of_not_list list) fuel).symm

theorem evaluate_eq_loop (below : ctx.depth < ctx.limit) (fuel : Nat) (form : Value) :
    evaluate host fuel ctx form scope = Run.loop host fuel ctx [] form scope := by
  rw [evaluate, Run.enterWith, if_neg (Nat.not_le.2 below), onFreshStack_eq, ite_self]

/-- A run without stamps resolves its form, takes a step, and goes on from there. -/
theorem loop_succ (off : ctx.annotate = false) (fuel : Nat) (form : Value) :
    Run.loop host (fuel + 1) ctx [] form scope =
      (do let expanded ← (Run.evaluatorAt host fuel).resolve ctx scope form
          let step ← (Run.evaluatorAt host fuel).step ctx scope expanded
          Run.afterStep host fuel ctx step) := by
  rw [Run.loop]
  congr 1
  funext expanded
  dsimp only
  congr 1
  funext step
  cases step with
  | done value =>
      simp only [off]
      rfl
  | tail next inner =>
      simp only [off]
      rfl

theorem loop_of_macroexpand (off : ctx.annotate = false) {fuel : Nat} {form g : Value} {s t : Store}
    (ends : macroexpand host (fuel + 1) ctx form scope s = .ok g t) :
    Run.loop host (fuel + 2) ctx [] form scope s =
      (do let step ← (Run.evaluatorAt host (fuel + 1)).step ctx scope g
          Run.afterStep host (fuel + 1) ctx step) t := by
  rw [loop_succ off, bind_of_ok ((resolve_eq_macroexpand off fuel form s).trans ends)]

section Outcomes

variable (monotone : host.Monotone) (off : ctx.annotate = false) (below : ctx.depth < ctx.limit)
  {s t u : Store} {form g : Value} {result : Except Error Value}

include monotone off below

/-- A form that expands into another has the outcomes of the other in the store that is left. -/
theorem evaluates_iff_of_expands (expands : Expands host ctx form scope s (.ok g) t) :
    Evaluates host ctx form scope s result u ↔ Evaluates host ctx g scope t result u := by
  -- Both runs resolve their form to `g` in `t`, and are one computation from there on.
  refine (evaluate_growing monotone ctx form scope).ends_congr
    (evaluate_growing monotone ctx g scope) 0 (eventually_of_succ (eventually_of_succ ?_))
  have ends := (macroexpand_growing monotone ctx form scope).eventually_value expands
  filter_upwards [(tendsto_add_atTop_nat 1).eventually ends] with fuel ends
  have plain : t.calledMacro? scope g = none := Expansion.calledMacro?_of_run off ends
  have again : macroexpand host (fuel + 1) ctx g scope t = .ok g t :=
    Expansion.run_of_plain off plain fuel
  rw [evaluate_eq_loop below, evaluate_eq_loop below, loop_of_macroexpand off ends,
    loop_of_macroexpand off again]

theorem evaluates_error_of_expands {error : Error}
    (expands : Expands host ctx form scope s (.error error) t) :
    Evaluates host ctx form scope s (.error error) t := by
  refine (evaluate_growing monotone ctx form scope).ends_iff_eventually.2
    (eventually_of_succ (eventually_of_succ ?_))
  have ends := (macroexpand_growing monotone ctx form scope).eventually_error expands
  filter_upwards [(tendsto_add_atTop_nat 1).eventually ends] with fuel ends
  rw [attempt_eq_error_iff, evaluate_eq_loop below, loop_succ off,
    bind_of_error ((resolve_eq_macroexpand off fuel form s).trans ends)]

end Outcomes

/-- Expanding first does not change the meaning of a form: it fails as its expansion fails, and
otherwise has the outcomes of what it expands into, evaluated after the expansion. -/
theorem evaluates_iff_after_expansion (host : Host) (monotone : host.Monotone) (form : Value)
    (scope : ScopeId) (s t : Store) :
    (∀ error, Expands host (.top false) form scope s (.error error) t →
      ∀ result u, Evaluates host (.top false) form scope s result u ↔
        result = .error error ∧ u = t) ∧
    (∀ g, Expands host (.top false) form scope s (.ok g) t →
      ∀ result u, Evaluates host (.top false) form scope s result u ↔
        Evaluates host (.top false) g scope t result u) := by
  have below : (Context.top false).depth < (Context.top false).limit := by decide
  refine ⟨fun error expands result u => ?_, fun g expands result u => ?_⟩
  · have fails := evaluates_error_of_expands monotone rfl below expands
    constructor
    · exact fun ends => (evaluate_growing monotone _ form scope).ends_unique ends fails
    · rintro ⟨rfl, rfl⟩
      exact fails
  · exact evaluates_iff_of_expands monotone rfl below expands

/-- A macro `m` that returns its argument: `(m (quote y))` expands into `(quote y)` and has the value
`y`. -/
theorem evaluates_call_of_identity_macro :
    let identity : Value := .fn 0 (.seq 1 .vector [.symbol "x"]) (.symbol "x") 0 true
    let g : Value := .seq 3 .list [.symbol "quote", .symbol "y"]
    let form : Value := .seq 2 .list [.symbol "m", g]
    let s := (Store.empty.addScope none).2.define 0 "m" identity
    let t := (s.addScope (some 0)).2.define 1 "x" g
    Host.none.Monotone ∧ Expands Host.none (.top false) form 0 s (.ok g) t ∧
      Evaluates Host.none (.top false) form 0 s (.ok (.symbol "y")) t := by
  intro identity g form s t
  have expands : Expands Host.none (.top false) form 0 s (.ok g) t := ⟨3, rfl⟩
  have evaluates : Evaluates Host.none (.top false) g 0 t (.ok (.symbol "y")) t := ⟨3, rfl⟩
  have iff := (evaluates_iff_after_expansion Host.none Host.none_monotone form 0 s t).2 g expands
  exact ⟨Host.none_monotone, expands, (iff _ _).2 evaluates⟩

end AnnotatedLisp
