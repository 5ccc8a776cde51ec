import AnnotatedLisp.Proofs.Annotation
import AnnotatedLisp.Proofs.MacroExpansion

/-!
Tail steps cost no depth.

A tail rule says which form takes the place of a form, in which scope and store, once the evaluations
that have to come first are over; these are nested one level deeper, the form that takes the place is
not. The rules are those of branches, sequences, `let`, calls, handlers, quasiquotation and
`eval-when-execute`. The form and the form in its place have the same outcomes on the same level, hence
so have the ends of a chain of such steps of any length.
-/

namespace AnnotatedLisp

open Eval Filter

/-- A form that is to be evaluated in a scope and a store. -/
structure Config where
  form : Value
  scope : ScopeId
  store : Store

section Relations

variable (host : Host) (ctx : Context)

/-- The outcomes of a form in its scope and store. -/
def Config.Ends (c : Config) : Except Error Value → Store → Prop :=
  Evaluates host ctx c.form c.scope c.store

/-- Evaluating the forms one after the other gives the values and leaves the last store. -/
inductive EvaluatesAll (scope : ScopeId) : List Value → Store → List Value → Store → Prop
  | nil {s : Store} : EvaluatesAll scope [] s [] s
  | cons {form value : Value} {forms values : List Value} {s t u : Store}
      (first : Evaluates host ctx form scope s (.ok value) t)
      (rest : EvaluatesAll scope forms t values u) :
      EvaluatesAll scope (form :: forms) s (value :: values) u

/-- Evaluating and binding the pairs of a `let` in its scope leaves the last store. -/
inductive BindsPairs (scope : ScopeId) : List Value → Store → Store → Prop
  | nil {s : Store} : BindsPairs scope [] s s
  | cons {param form value : Value} {pairs : List Value} {s t u v : Store}
      (first : Evaluates host ctx form scope s (.ok value) t)
      (bound : Params.bind scope param value t = .ok () u) (rest : BindsPairs scope pairs u v) :
      BindsPairs scope (param :: form :: pairs) s v

/-- What takes the place of a form evaluated in a scope and a store. -/
inductive TailRule (scope : ScopeId) (s : Store) : Value → Config → Prop
  | yes {node : NodeId} {condition yes value : Value} {no : Option Value} {t : Store}
      (evaluated : Evaluates host ctx.nested condition scope s (.ok value) t)
      (holds : value.isTruthy = true) :
      TailRule scope s (.seq node .list (.symbol "if" :: condition :: yes :: no.toList))
        ⟨yes, scope, t⟩
  | no {node : NodeId} {condition yes no value : Value} {t : Store}
      (evaluated : Evaluates host ctx.nested condition scope s (.ok value) t)
      (fails : value.isTruthy = false) :
      TailRule scope s (.seq node .list [.symbol "if", condition, yes, no]) ⟨no, scope, t⟩
  | last {node : NodeId} {forms values : List Value} {last : Value} {t : Store}
      (evaluated : EvaluatesAll host ctx.nested scope forms s values t) :
      TailRule scope s (.seq node .list (.symbol "do" :: (forms ++ [last]))) ⟨last, scope, t⟩
  | letBody {node label : NodeId} {kind : SeqKind} {pairs body : List Value} {form : Value}
      {t u : Store} (even : pairs.length % 2 = 0) (inhabited : body ≠ [])
      (bound : BindsPairs host ctx.nested s.scopes.size pairs (s.addScope (some scope)).2 t)
      (made : Special.bodyForm body t = .ok form u) :
      TailRule scope s (.seq node .list (.symbol "let" :: .seq label kind pairs :: body))
        ⟨form, s.scopes.size, u⟩
  | call {node label : NodeId} {head params body : Value} {args values : List Value}
      {outer inner : ScopeId} {isMacro : Bool} {t u v : Store}
      (ordinary : Special.ofHead? head = none)
      (callee : Evaluates host ctx.nested head scope s (.ok (.fn label params body outer isMacro)) t)
      (evaluated : EvaluatesAll host ctx.nested scope args t values u)
      (bound : Params.newScope outer params values u = .ok inner v) :
      TailRule scope s (.seq node .list (head :: args)) ⟨body, inner, v⟩
  | handler {node label : NodeId} {body handler : Value} {name : String} {error : Error} {t : Store}
      (failed : Evaluates host ctx.nested body scope s (.error error) t) :
      TailRule scope s
        (.seq node .list [.symbol "try", body,
          .seq label .list [.symbol "catch", .symbol name, handler]])
        ⟨handler, t.scopes.size,
          (t.addScope (some scope)).2.define t.scopes.size name error.caught⟩
  | quasiquote {node : NodeId} {template form : Value} {t : Store}
      (built : Template.builder template s = .ok form t) :
      TailRule scope s (.seq node .list [.symbol "quasiquote", template]) ⟨form, scope, t⟩
  | again {node : NodeId} {form value : Value} {t : Store}
      (evaluated : Evaluates host ctx.nested form scope s (.ok value) t) :
      TailRule scope s (.seq node .list [.symbol "eval-when-execute", form]) ⟨value, scope, t⟩

/-- The second form takes the place of the first, which is no macro call. -/
structure TailStep (a b : Config) : Prop where
  plain : a.store.calledMacro? a.scope a.form = none
  rule : TailRule host ctx a.scope a.store a.form b

end Relations

namespace Evaluator

variable (ev : Evaluator) (ctx : Context) (scope : ScopeId)

theorem step_special {head : Value} {special : Special} (named : Special.ofHead? head = some special)
    (node : NodeId) (args : List Value) :
    ev.step ctx scope (.seq node .list (head :: args)) = special.run ev ctx scope args := by
  simp only [step, named]

theorem step_call {head : Value} (ordinary : Special.ofHead? head = none) (node : NodeId)
    (args : List Value) :
    ev.step ctx scope (.seq node .list (head :: args)) = ev.stepCall ctx scope node head args := by
  simp only [step, ordinary]

theorem step_of_atom {form : Value} (atom : form.isList = false) :
    ev.step ctx scope form = (do return .done (← ev.evalAtom ctx scope form)) := by
  cases form with
  | seq node kind items =>
      cases kind with
      | list => cases atom
      | vector => rfl
  | _ => rfl

theorem resolve_of_atom {form : Value} (atom : form.isList = false) :
    ev.resolve ctx scope form = pure form := by
  cases form with
  | seq node kind items =>
      cases kind with
      | list => cases atom
      | vector => rfl
  | _ => rfl

theorem enterAll_cons (form : Value) (forms : List Value) :
    ev.enterAll ctx scope (form :: forms) =
      (do let value ← ev.enter ctx.nested form scope
          let values ← ev.enterAll ctx scope forms
          return value :: values) := by
  rw [enterAll, List.mapM_cons]
  rfl

theorem runDo_append (forms : List Value) (last : Value) :
    Special.runDo ev ctx scope (forms ++ [last]) =
      (do let _ ← ev.enterAll ctx scope forms
          return .tail last scope) := by
  induction forms with
  | nil => rfl
  | cons form forms ih =>
      -- `runDo` looks one form ahead: behind a form there is another one, whatever `forms` is.
      have unfolded : Special.runDo ev ctx scope (form :: forms ++ [last]) =
          ev.enter ctx.nested form scope >>= fun _ => Special.runDo ev ctx scope (forms ++ [last]) := by
        cases forms <;> rfl
      rw [unfolded, ih, enterAll_cons]
      simp only [bind_assoc]
      rfl

variable {ev ctx scope} {s t u : Store}

theorem choose_of_truthy {condition value : Value}
    (evaluated : ev.enter ctx.nested condition scope s = .ok value t) (holds : value.isTruthy = true)
    (yes : Value) (no : Option Value) :
    Special.choose ev ctx scope condition yes no s = .ok (.tail yes scope) t := by
  rw [Special.choose.eq_def, bind_of_ok evaluated, if_pos holds, pure_apply]

theorem choose_of_not_truthy {condition value : Value}
    (evaluated : ev.enter ctx.nested condition scope s = .ok value t)
    (fails : value.isTruthy = false) (yes no : Value) :
    Special.choose ev ctx scope condition yes (some no) s = .ok (.tail no scope) t := by
  rw [Special.choose.eq_def, bind_of_ok evaluated, if_neg (by simp [fails])]
  rfl

theorem runLet_of_bound {label : NodeId} {kind : SeqKind} {pairs body : List Value} {form : Value}
    (even : pairs.length % 2 = 0) (inhabited : body ≠ [])
    (bound : Special.bindPairs ev ctx s.scopes.size pairs (s.addScope (some scope)).2 = .ok () t)
    (made : Special.bodyForm body t = .ok form u) :
    Special.runLet ev ctx scope (.seq label kind pairs :: body) s =
      .ok (.tail form s.scopes.size) u := by
  rw [Special.runLet, if_neg (by omega), bind_of_ok (newScope_apply scope s), bind_of_ok bound]
  cases body with
  | nil => contradiction
  | cons first rest =>
      change (Special.bodyForm (first :: rest) >>= _) t = _
      rw [bind_of_ok made, pure_apply]

theorem runTry_of_error {label : NodeId} {body handler : Value} {name : String} {error : Error}
    (failed : ev.enter ctx.nested body scope s = .error (.error error) t) :
    Special.runTry ev ctx scope
        [body, .seq label .list [.symbol "catch", .symbol name, handler]] s =
      .ok (.tail handler t.scopes.size)
        ((t.addScope (some scope)).2.define t.scopes.size name error.caught) := by
  rw [Special.runTry, Special.runTryBody, bind_of_ok (attempt_of_error failed)]
  rfl

theorem stepCall_of_fn {head params body : Value} {args values : List Value} {node label : NodeId}
    {outer inner : ScopeId} {isMacro : Bool} {v w : Store}
    (callee : ev.enter ctx.nested head scope s = .ok (.fn label params body outer isMacro) t)
    (evaluated : ev.enterAll ctx scope args t = .ok values u)
    (stamped : ctx.stamp node
      (fun stamps => { stamps with applied := some (.fn label params body outer isMacro) }) u = .ok () v)
    (bound : Params.newScope outer params values v = .ok inner w) :
    ev.stepCall ctx scope node head args s = .ok (.tail body inner) w := by
  rw [stepCall, bind_of_ok callee, bind_of_ok evaluated, bind_of_ok stamped, stepApply,
    bind_of_ok bound, pure_apply]

end Evaluator

/-- Stamps do not matter to the parameters of a call. -/
theorem exists_newScope_of_stamp (ctx : Context) {node : NodeId} {change : Stamps → Stamps}
    {outer inner : ScopeId} {params : Value} {values : List Value} {u v : Store}
    (bound : Params.newScope outer params values u = .ok inner v) :
    ∃ t w, w.unstamped = v.unstamped ∧ (ctx.annotate = false → w = v) ∧
      ctx.stamp node change u = .ok () t ∧ Params.newScope outer params values t = .ok inner w := by
  cases on : ctx.annotate with
  | false => exact ⟨u, v, rfl, fun _ => rfl, by rw [stamp_of_off on]; rfl, bound⟩
  | true =>
      have follows : Simulation.stampBlind.Follows _ (Params.newScope outer params values)
          (Params.newScope outer params values) :=
        Simulation.follows_callScope outer params values
      obtain ⟨w, again, same⟩ :=
        follows.attempt_eq (s := u) (t := u.stamp node change) rfl (attempt_of_ok bound)
      refine ⟨u.stamp node change, w, Eq.symm same, nofun, ?_, attempt_eq_value_iff.1 again⟩
      rw [Context.stamp, on]
      rfl

section Outcomes

variable {host : Host} (monotone : host.Monotone) {ctx : Context} {scope : ScopeId} {s t : Store}

include monotone

theorem eventually_enter_value {form value : Value}
    (ends : Evaluates host ctx form scope s (.ok value) t) :
    ∀ᶠ fuel in atTop, (Run.evaluatorAt host fuel).enter ctx form scope s = .ok value t :=
  (evaluate_growing monotone ctx form scope).eventually_value ends

theorem eventually_enter_error {form : Value} {error : Error}
    (ends : Evaluates host ctx form scope s (.error error) t) :
    ∀ᶠ fuel in atTop, (Run.evaluatorAt host fuel).enter ctx form scope s = .error (.error error) t :=
  (evaluate_growing monotone ctx form scope).eventually_error ends

theorem eventually_enterAll {forms values : List Value}
    (evaluated : EvaluatesAll host ctx.nested scope forms s values t) :
    ∀ᶠ fuel in atTop, (Run.evaluatorAt host fuel).enterAll ctx scope forms s = .ok values t := by
  induction evaluated with
  | nil => exact .of_forall fun _ => rfl
  | cons first _ ih =>
      filter_upwards [eventually_enter_value monotone first, ih] with fuel value values
      rw [Evaluator.enterAll_cons, bind_of_ok value, bind_of_ok values, pure_apply]

theorem eventually_bindPairs {pairs : List Value}
    (binds : BindsPairs host ctx.nested scope pairs s t) :
    ∀ᶠ fuel in atTop, Special.bindPairs (Run.evaluatorAt host fuel) ctx scope pairs s = .ok () t := by
  induction binds with
  | nil => exact .of_forall fun _ => rfl
  | cons first bound _ ih =>
      filter_upwards [eventually_enter_value monotone first, ih] with fuel value rest
      rw [Special.bindPairs, bind_of_ok value, bind_of_ok bound, rest]

/-- With enough fuel the step of the evaluator is the one that the rule describes. If stamps are made, the
store is that of the rule but for the stamps. -/
theorem exists_step_of_tailRule {form : Value} {b : Config} (rule : TailRule host ctx scope s form b) :
    ∃ t, t.unstamped = b.store.unstamped ∧ (ctx.annotate = false → t = b.store) ∧
      ∀ᶠ fuel in atTop, (Run.evaluatorAt host fuel).step ctx scope form s =
        .ok (.tail b.form b.scope) t := by
  cases rule with
  | @yes _ _ yes _ no _ evaluated holds =>
      refine ⟨_, rfl, fun _ => rfl, ?_⟩
      filter_upwards [eventually_enter_value monotone evaluated] with fuel evaluated
      cases no with
      | none => exact Evaluator.choose_of_truthy evaluated holds yes none
      | some no => exact Evaluator.choose_of_truthy evaluated holds yes (some no)
  | no evaluated fails =>
      refine ⟨_, rfl, fun _ => rfl, ?_⟩
      filter_upwards [eventually_enter_value monotone evaluated] with fuel evaluated
      exact Evaluator.choose_of_not_truthy evaluated fails _ _
  | last evaluated =>
      refine ⟨_, rfl, fun _ => rfl, ?_⟩
      filter_upwards [eventually_enterAll monotone evaluated] with fuel evaluated
      change Special.runDo _ ctx scope (_ ++ [_]) s = _
      rw [Evaluator.runDo_append, bind_of_ok evaluated, pure_apply]
  | @letBody _ label kind _ _ _ _ _ even inhabited bound made =>
      refine ⟨_, rfl, fun _ => rfl, ?_⟩
      filter_upwards [eventually_bindPairs monotone bound] with fuel bound
      change Special.runLet _ ctx scope (.seq label kind _ :: _) s = _
      exact Evaluator.runLet_of_bound even inhabited bound made
  | call ordinary callee evaluated bound =>
      obtain ⟨u, t, same, unchanged, stamped, bound⟩ := exists_newScope_of_stamp ctx bound
      refine ⟨t, same, unchanged, ?_⟩
      filter_upwards [eventually_enter_value monotone callee, eventually_enterAll monotone evaluated]
        with fuel callee evaluated
      rw [Evaluator.step_call _ _ _ ordinary]
      exact Evaluator.stepCall_of_fn callee evaluated stamped bound
  | @handler _ label _ _ _ _ _ failed =>
      refine ⟨_, rfl, fun _ => rfl, ?_⟩
      filter_upwards [eventually_enter_error monotone failed] with fuel failed
      change Special.runTry _ ctx scope [_, .seq label .list _] s = _
      exact Evaluator.runTry_of_error failed
  | quasiquote built => exact ⟨_, rfl, fun _ => rfl, .of_forall fun _ => bind_of_ok built⟩
  | again evaluated =>
      refine ⟨_, rfl, fun _ => rfl, ?_⟩
      filter_upwards [eventually_enter_value monotone evaluated] with fuel evaluated
      exact bind_of_ok evaluated

theorem eventually_step_of_tailRule (off : ctx.annotate = false) {form : Value} {b : Config}
    (rule : TailRule host ctx scope s form b) :
    ∀ᶠ fuel in atTop, (Run.evaluatorAt host fuel).step ctx scope form s =
      .ok (.tail b.form b.scope) b.store := by
  obtain ⟨t, _, same, steps⟩ := exists_step_of_tailRule monotone rule
  rwa [same off] at steps

variable {result : Except Error Value} {a b : Config}

/-- The form that takes the place of another has its outcomes on the same level. -/
theorem ends_iff_of_tailStep (off : ctx.annotate = false) (below : ctx.depth < ctx.limit)
    (tail : TailStep host ctx a b) : a.Ends host ctx result t ↔ b.Ends host ctx result t := by
  -- The step itself takes one unit of fuel and no level: what is left of the run is the run of `b`.
  refine (evaluate_growing monotone ctx a.form a.scope).ends_congr
    (evaluate_growing monotone ctx b.form b.scope) 1 (eventually_of_succ ?_)
  have steps := eventually_step_of_tailRule monotone off tail.rule
  filter_upwards [(tendsto_add_atTop_nat 1).eventually steps] with fuel step
  have plain : macroexpand host (fuel + 1) ctx a.form a.scope a.store = .ok a.form a.store :=
    Expansion.run_of_plain off tail.plain fuel
  rw [evaluate_eq_loop below, evaluate_eq_loop below, loop_of_macroexpand off plain,
    bind_of_ok step]
  rfl

end Outcomes

end AnnotatedLisp
