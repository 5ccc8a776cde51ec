import AnnotatedLisp.Proofs.Tail.Nesting
import Mathlib.Data.List.Basic

/-!
Where a refusal comes from.

A run that is itself below the limit fails for want of depth only when an evaluation that it asked for
does, or an operation of the host. Every outcome of a step is explained: a tail step is one by the
rules, and a refusal has been asked for. By induction on its fuel a run is explained step by step.
-/

namespace AnnotatedLisp

open Eval

/-- What a step may come to: a tail step is one by the rules, and a refusal has been asked for. -/
inductive Explains (host : Host) (ctx : Context) (a : Config) : EStateM.Result Stop Store Step → Prop
  | done {value : Value} {t : Store} : Explains host ctx a (.ok (.done value) t)
  | tail {form : Value} {scope : ScopeId} {t : Store}
      (rule : TailRule host ctx a.scope a.store a.form ⟨form, scope, t⟩) :
      Explains host ctx a (.ok (.tail form scope) t)
  | raised {error : Error} {t : Store} (unrefused : error.isRefusal = false) :
      Explains host ctx a (.error (.error error) t)
  | failed {error : Error} {t : Store} (fails : FailsFor host ctx a error t) :
      Explains host ctx a (.error (.error error) t)
  | exhausted {t : Store} : Explains host ctx a (.error .exhausted t)

namespace Explains

section

variable {host : Host} {ctx : Context} {a : Config} {u : Store}

theorem bind {α : Type} {x : Eval α} {f : α → Eval Step}
    (error : ∀ e t, x u = .error (.error e) t → Explains host ctx a (.error (.error e) t))
    (ok : ∀ value t, x u = .ok value t → Explains host ctx a (f value t)) :
    Explains host ctx a ((x >>= f) u) := by
  cases h : x u with
  | ok value t =>
      rw [bind_of_ok h]
      exact ok value t h
  | error e t =>
      rw [bind_of_error h]
      cases e with
      | error e => exact error e t h
      | exhausted => exact .exhausted

/-- What evaluates nothing does not refuse anything. -/
theorem bind_calm {α : Type} {fits : α → Prop} {x : Eval α} {f : α → Eval Step}
    (calm : Invariant.calm.simulation.Follows fits x x)
    (ok : ∀ value t, x u = .ok value t → Explains host ctx a (f value t)) :
    Explains host ctx a ((x >>= f) u) :=
  bind (fun _ _ fails => .raised (isRefusal_of_calm calm fails)) ok

theorem runQuote (args : List Value) : Explains host ctx a (Special.runQuote args u) := by
  rw [Special.runQuote.eq_def]
  split
  · exact .done
  · exact .raised rfl

theorem runMacro (scope : ScopeId) (args : List Value) :
    Explains host ctx a (Special.runMacro scope args u) := by
  rw [Special.runMacro.eq_def]
  split
  · exact bind_calm (Simulation.follows_newMacro _ _) fun _ _ _ => .done
  · exact bind_calm (Simulation.follows_newMacro _ _) fun _ _ _ => .done
  · exact .raised rfl

theorem runFn (scope : ScopeId) (args : List Value) :
    Explains host ctx a (Special.runFn scope args u) := by
  rw [Special.runFn.eq_def]
  split
  · refine bind_calm (Simulation.follows_checkParams _ _) fun _ _ _ => ?_
    exact bind_calm (Simulation.follows_bodyForm _) fun _ _ _ => .done
  · exact .raised rfl

end

section Rules

variable {host : Host} {ctx : Context} {node : NodeId} {head : Value} {args : List Value}
  {scope : ScopeId} {s : Store} (fuel : Nat)
  (plain : s.calledMacro? scope (.seq node .list (head :: args)) = none)

include plain

theorem bind_operand {operand : Value} {f : Value → Eval Step}
    (here : Form.operands (.seq node .list (head :: args)) = [operand])
    (ok : ∀ value t, Evaluates host ctx.nested operand scope s (.ok value) t →
      Explains host ctx ⟨.seq node .list (head :: args), scope, s⟩ (f value t)) :
    Explains host ctx ⟨.seq node .list (head :: args), scope, s⟩
      (((Run.evaluatorAt host fuel).enter ctx.nested operand scope >>= f) s) :=
  bind (fun _ _ fails => .failed (.asked (.first plain here) (evaluates_error_of_enter fails)))
    fun value t ends => ok value t (evaluates_of_enter ends)

theorem runDef (named : Special.ofHead? head = some .define) :
    Explains host ctx ⟨.seq node .list (head :: args), scope, s⟩
      (Special.runDef (Run.evaluatorAt host fuel) ctx scope args s) := by
  rw [Special.runDef.eq_def]
  split
  · exact bind_operand fuel plain (by simp only [Form.operands, named]) fun _ _ _ => .done
  · exact .raised rfl

theorem runLet (named : Special.ofHead? head = some .letIn) :
    Explains host ctx ⟨.seq node .list (head :: args), scope, s⟩
      (Special.runLet (Run.evaluatorAt host fuel) ctx scope args s) := by
  obtain rfl := Special.eq_of_ofHead? named
  rw [Special.runLet.eq_def]
  split
  next label kind pairs body =>
    split
    · exact .raised rfl
    next odd =>
      have even : pairs.length % 2 = 0 := by omega
      rw [bind_of_ok (newScope_apply scope s)]
      refine bind (fun e t fails => ?_) fun _ t bound => ?_
      · obtain calm | ⟨before, param, form, after, u, rfl, rest, last⟩ := fails_of_bindPairs fails
        · exact .raised calm
        · exact .failed (.asked (.binding plain rfl even rest) last)
      · have bound := bindsPairs_of_bindPairs even bound
        cases body with
        | nil => exact .done
        | cons first rest =>
            exact bind_calm (Simulation.follows_bodyForm (first :: rest)) fun form u made =>
              .tail (.letBody even (by simp) bound made)
  · exact .raised rfl

theorem runQuasiquote (named : Special.ofHead? head = some .quasiquote) :
    Explains host ctx ⟨.seq node .list (head :: args), scope, s⟩
      (Special.runQuasiquote scope args s) := by
  obtain rfl := Special.eq_of_ofHead? named
  rw [Special.runQuasiquote.eq_def]
  split
  · exact bind_calm (Simulation.follows_builder _) fun form t built => .tail (.quasiquote built)
  · exact .raised rfl

theorem runMacroexpand (off : ctx.annotate = false)
    (named : Special.ofHead? head = some .macroexpand) :
    Explains host ctx ⟨.seq node .list (head :: args), scope, s⟩
      (Special.runMacroexpand (Run.evaluatorAt host fuel) ctx scope args s) := by
  obtain rfl := Special.eq_of_ofHead? named
  rw [Special.runMacroexpand.eq_def]
  split
  · refine bind (fun e t fails => ?_) fun _ _ _ => .done
    have off' : ctx.nested.annotate = false := off
    obtain calm | ⟨b, c, steps, opens, fails⟩ := fails_of_run off' fails
    · exact .raised calm
    · exact .failed (.asked (.macroexpansion plain rfl steps opens) fails)
  · exact .raised rfl

/-- The clause is looked at only when the body has failed. Whatever it is, the failure that goes on is
that of the body. -/
theorem runTryBody {body : Value} {clause : Option Value} (shape : args = body :: clause.toList)
    (named : Special.ofHead? head = some .attempt) :
    Explains host ctx ⟨.seq node .list (head :: args), scope, s⟩
      (Special.runTryBody (Run.evaluatorAt host fuel) ctx scope body clause s) := by
  obtain rfl := Special.eq_of_ofHead? named
  rw [Special.runTryBody]
  refine bind (fun e t fails => absurd fails attempt_ne_error) fun result t ends => ?_
  cases result with
  | ok value => exact .done
  | error error =>
      have failed : Evaluates host ctx.nested body scope s (.error error) t :=
        evaluates_error_of_enter (attempt_eq_error_iff.1 ends)
      have here : Form.operands (.seq node .list (.symbol "try" :: args)) = [body] := by
        cases clause <;> subst shape <;> rfl
      have again : Explains host ctx ⟨.seq node .list (.symbol "try" :: args), scope, s⟩
          (.error (.error error) t) := .failed (.asked (.first plain here) failed)
      cases clause with
      | none => exact again
      | some clause =>
          dsimp only [Option.map_some, Option.getD_some]
          cases checked : Special.catchClause? clause with
          | error e => exact .raised (unrefused_catchClause clause e checked)
          | ok found =>
              cases found with
              | none => exact again
              | some handler =>
                  obtain ⟨name, handler⟩ := handler
                  obtain ⟨label, rfl⟩ := Special.eq_of_catchClause? checked
                  subst shape
                  exact .tail (.handler failed)

theorem runTry (named : Special.ofHead? head = some .attempt) :
    Explains host ctx ⟨.seq node .list (head :: args), scope, s⟩
      (Special.runTry (Run.evaluatorAt host fuel) ctx scope args s) := by
  rw [Special.runTry.eq_def]
  split
  · exact runTryBody fuel plain rfl named
  · exact runTryBody fuel plain rfl named
  · exact .raised rfl

theorem runDo (named : Special.ofHead? head = some .sequence) :
    Explains host ctx ⟨.seq node .list (head :: args), scope, s⟩
      (Special.runDo (Run.evaluatorAt host fuel) ctx scope args s) := by
  obtain rfl := Special.eq_of_ofHead? named
  obtain rfl | ⟨forms, last, rfl⟩ := List.eq_nil_or_concat' args
  · exact .done
  · rw [Evaluator.runDo_append]
    refine bind (fun e t fails => ?_) fun values t ends => ?_
    · obtain ⟨before, form, after, values, u, rfl, evaluated, fails⟩ := fails_of_enterAll fails
      have here : Form.operands (.seq node .list (.symbol "do" :: (before ++ form :: after ++ [last])))
          = before ++ form :: after := List.dropLast_concat
      exact .failed (.asked (.operand plain here evaluated) fails)
    · exact .tail (.last (evaluatesAll_of_enterAll ends))

theorem choose {condition yes : Value} {no : Option Value}
    (shape : args = condition :: yes :: no.toList)
    (named : Special.ofHead? head = some .conditional) :
    Explains host ctx ⟨.seq node .list (head :: args), scope, s⟩
      (Special.choose (Run.evaluatorAt host fuel) ctx scope condition yes no s) := by
  obtain rfl := Special.eq_of_ofHead? named
  subst shape
  rw [Special.choose.eq_def]
  refine bind_operand fuel plain (by cases no <;> rfl) fun value t evaluated => ?_
  split
  next holds => exact .tail (.yes evaluated holds)
  next fails =>
    cases no with
    | none => exact .done
    | some no => exact .tail (.no evaluated (by simpa using fails))

theorem runIf (named : Special.ofHead? head = some .conditional) :
    Explains host ctx ⟨.seq node .list (head :: args), scope, s⟩
      (Special.runIf (Run.evaluatorAt host fuel) ctx scope args s) := by
  rw [Special.runIf.eq_def]
  split
  · exact choose fuel plain rfl named
  · exact choose fuel plain rfl named
  · exact .raised rfl

theorem runEvalWhenExecute (named : Special.ofHead? head = some .evalWhenExecute) :
    Explains host ctx ⟨.seq node .list (head :: args), scope, s⟩
      (Special.runEvalWhenExecute (Run.evaluatorAt host fuel) ctx scope args s) := by
  obtain rfl := Special.eq_of_ofHead? named
  rw [Special.runEvalWhenExecute.eq_def]
  split
  · exact bind_operand fuel plain rfl fun value t evaluated => .tail (.again evaluated)
  · exact .raised rfl

theorem special {special : Special} (off : ctx.annotate = false)
    (named : Special.ofHead? head = some special) :
    Explains host ctx ⟨.seq node .list (head :: args), scope, s⟩
      (special.run (Run.evaluatorAt host fuel) ctx scope args s) := by
  cases special with
  | define => exact runDef fuel plain named
  | letIn => exact runLet fuel plain named
  | quote => exact runQuote args
  | quasiquote => exact runQuasiquote plain named
  | makeMacro => exact runMacro scope args
  | macroexpand => exact runMacroexpand fuel plain off named
  | attempt => exact runTry fuel plain named
  | sequence => exact runDo fuel plain named
  | conditional => exact runIf fuel plain named
  | makeFn => exact runFn scope args
  | evalWhenExecute => exact runEvalWhenExecute fuel plain named

/-- Only an operation of the host can fail in ways of its own; those of the language do not refuse. -/
theorem stepApply {callee : Value} {values : List Value} {t : Store}
    (ordinary : Special.ofHead? head = none)
    (called : Evaluates host ctx.nested head scope s (.ok callee) t) {u : Store}
    (evaluated : EvaluatesAll host ctx.nested scope args t values u) :
    Explains host ctx ⟨.seq node .list (head :: args), scope, s⟩
      ((Run.evaluatorAt host fuel).stepApply callee values u) := by
  cases callee with
  | fn label params body outer isMacro =>
      exact bind_calm (Simulation.follows_callScope outer params values) fun inner v bound =>
        .tail (.call ordinary called evaluated bound)
  | native operation =>
      cases operation with
      | core operation =>
          exact bind_calm (Simulation.follows_core operation values) fun _ _ _ => .done
      | host name registered =>
          refine bind (fun e t fails => ?_) fun _ _ _ => .done
          exact .failed (.native ⟨plain, rfl, ordinary, .cons called evaluated⟩
            ⟨fuel, attempt_eq_error_iff.2 fails⟩)
  | _ => exact .raised rfl

theorem stepCall (off : ctx.annotate = false) (ordinary : Special.ofHead? head = none) :
    Explains host ctx ⟨.seq node .list (head :: args), scope, s⟩
      ((Run.evaluatorAt host fuel).stepCall ctx scope node head args s) := by
  have here : Form.operands (.seq node .list (head :: args)) = head :: args := by
    simp only [Form.operands, ordinary]
  rw [Evaluator.stepCall]
  refine bind (fun e t fails => ?_) fun callee t called => ?_
  · exact .failed (.asked (.first plain here) (evaluates_error_of_enter fails))
  have called := evaluates_of_enter called
  refine bind (fun e u fails => ?_) fun values u ends => ?_
  · obtain ⟨before, form, after, values, v, rfl, evaluated, fails⟩ := fails_of_enterAll fails
    exact .failed (.asked (.operand plain here (.cons called evaluated)) fails)
  rw [stamp_of_off off, pure_bind_apply]
  exact stepApply fuel plain ordinary called (evaluatesAll_of_enterAll ends)

end Rules

section Forms

variable {host : Host} {ctx : Context} (off : ctx.annotate = false) {form : Value} {scope : ScopeId}
  {s : Store} (plain : s.calledMacro? scope form = none) (fuel : Nat)

include off plain

theorem evalAtom (atom : form.isList = false) :
    Explains host ctx ⟨form, scope, s⟩
      (((Run.evaluatorAt host fuel).evalAtom ctx scope form >>= fun value => pure (.done value))
        s) := by
  cases form with
  | symbol name => exact bind_calm (Simulation.follows_lookup scope name) fun _ _ _ => .done
  | seq node kind items =>
      cases kind with
      | list => cases atom
      | vector =>
          refine bind (fun e t fails => ?_) fun _ _ _ => .done
          rw [Evaluator.evalAtom] at fails
          obtain fails | ⟨values, u, _, fails⟩ := bind_eq_error_iff.1 fails
          · obtain ⟨before, form, after, values, v, rfl, evaluated, fails⟩ := fails_of_enterAll fails
            exact .failed (.asked (.operand plain rfl evaluated) fails)
          · simp only [stamp_of_off off] at fails
            cases fails
  | map node entries =>
      refine bind (fun e t fails => ?_) fun _ _ _ => .done
      rw [Evaluator.evalAtom] at fails
      obtain fails | ⟨values, u, _, fails⟩ := bind_eq_error_iff.1 fails
      · obtain ⟨before, form, after, values, v, here, evaluated, fails⟩ :=
          fails_of_enterAll (enterAll_of_enterEntries fails)
        exact .failed (.asked (.operand plain here evaluated) fails)
      · simp only [stamp_of_off off] at fails
        cases fails
  | _ => exact .done

theorem step : Explains host ctx ⟨form, scope, s⟩
    ((Run.evaluatorAt host fuel).step ctx scope form s) := by
  cases form with
  | seq node kind items =>
      cases kind with
      | list =>
          cases items with
          | nil => exact .done
          | cons head args =>
              cases named : Special.ofHead? head with
              | some special =>
                  rw [Evaluator.step_special _ _ _ named]
                  exact Explains.special fuel plain off named
              | none =>
                  rw [Evaluator.step_call _ _ _ named]
                  exact stepCall fuel plain off named
      | vector => exact evalAtom off plain fuel rfl
  | _ => exact evalAtom off plain fuel rfl

end Forms

end Explains

end AnnotatedLisp
