import AnnotatedLisp.Eval.Expansion
import AnnotatedLisp.Eval.Step
import AnnotatedLisp.Proofs.Simulation.Basic

/-!
Steps respect simulations: where the nested evaluations of two evaluators follow one another, so do the
steps taken with them, for every special form, calls and atoms, and so does macro expansion.

A step goes on in the scope it was taken in or in one that it has added. That is what keeps a whole run
inside the scopes that the simulation owns.
-/

namespace AnnotatedLisp
namespace Simulation

open Eval

variable {S : Simulation}

/-- What the steps of two runs may call. -/
structure Evaluators (S : Simulation) (ev ev' : Evaluator) : Prop where
  enter : ∀ {a b : Context} (form : Value) {scope : ScopeId}, S.contexts a b → S.owns scope →
    S.Follows Anything (ev.enter a form scope) (ev'.enter b form scope)
  expand : ∀ {a b : Context} (form : Value) {scope : ScopeId}, S.contexts a b → S.owns scope →
    S.Follows Anything (ev.expand a form scope) (ev'.expand b form scope)
  apply : ∀ (operation : Native) (args : List Value),
    S.Follows Anything (ev.apply operation args) (ev'.apply operation args)

/-- A step after which evaluation is over or goes on in an owned scope. -/
def GoesOn (S : Simulation) : Step → Prop
  | .done _ => True
  | .tail _ scope => S.owns scope

section Rules

variable {ev ev' : Evaluator} {a b : Context} {scope : ScopeId}

theorem follows_runDef (evs : S.Evaluators ev ev') (contexts : S.contexts a b)
    (own : S.owns scope) (args : List Value) :
    S.Follows S.GoesOn (Special.runDef ev a scope args) (Special.runDef ev' b scope args) := by
  rw [Special.runDef.eq_def, Special.runDef.eq_def]
  split
  · refine (evs.enter _ (S.nested contexts) own).bind fun value _ => ?_
    exact (follows_define own _ value).bind fun _ _ => follows_pure trivial
  · exact follows_raise (S.raises_unrefused rfl)

theorem follows_bindPairs (evs : S.Evaluators ev ev') (contexts : S.contexts a b)
    (own : S.owns scope) : ∀ bindings : List Value,
    S.Follows Anything (Special.bindPairs ev a scope bindings)
      (Special.bindPairs ev' b scope bindings)
  | param :: form :: rest =>
      (evs.enter form (S.nested contexts) own).bind fun value _ =>
        (follows_bind own param value).bind fun _ _ => follows_bindPairs evs contexts own rest
  | [] | [_] => follows_pure trivial

theorem follows_runLet (evs : S.Evaluators ev ev') (contexts : S.contexts a b)
    (args : List Value) :
    S.Follows S.GoesOn (Special.runLet ev a scope args) (Special.runLet ev' b scope args) := by
  rw [Special.runLet.eq_def, Special.runLet.eq_def]
  split
  · split
    · exact follows_raise (S.raises_unrefused rfl)
    · refine (S.follows_newScope scope).bind fun inner own => ?_
      refine (follows_bindPairs evs contexts own _).bind fun _ _ => ?_
      split
      · exact follows_pure trivial
      · exact (follows_bodyForm _).bind fun _ _ => follows_pure own
  · exact follows_raise (S.raises_unrefused rfl)

theorem follows_runQuote (args : List Value) :
    S.Follows S.GoesOn (Special.runQuote args) (Special.runQuote args) := by
  rw [Special.runQuote.eq_def]
  split
  · exact follows_pure trivial
  · exact follows_raise (S.raises_unrefused rfl)

theorem follows_runQuasiquote (own : S.owns scope) (args : List Value) :
    S.Follows S.GoesOn (Special.runQuasiquote scope args)
      (Special.runQuasiquote scope args) := by
  rw [Special.runQuasiquote.eq_def]
  split
  · exact (follows_builder _).bind fun _ _ => follows_pure own
  · exact follows_raise (S.raises_unrefused rfl)

theorem follows_newMacro (params body : Value) :
    S.Follows Anything (Special.newMacro scope params body)
      (Special.newMacro scope params body) :=
  (follows_checkParams _ params).bind fun _ _ =>
    S.follows_newNode.bind fun _ _ => follows_pure trivial

theorem follows_runMacro (own : S.owns scope) (args : List Value) :
    S.Follows S.GoesOn (Special.runMacro scope args) (Special.runMacro scope args) := by
  rw [Special.runMacro.eq_def]
  split
  · exact (follows_newMacro _ _).bind fun _ _ => follows_pure trivial
  · refine (follows_newMacro _ _).bind fun value _ => ?_
    exact (follows_define own _ value).bind fun _ _ => follows_pure trivial
  · exact follows_raise (S.raises_unrefused rfl)

theorem follows_runMacroexpand (evs : S.Evaluators ev ev') (contexts : S.contexts a b)
    (own : S.owns scope) (args : List Value) :
    S.Follows S.GoesOn (Special.runMacroexpand ev a scope args)
      (Special.runMacroexpand ev' b scope args) := by
  rw [Special.runMacroexpand.eq_def, Special.runMacroexpand.eq_def]
  split
  · exact (evs.expand _ (S.nested contexts) own).bind fun _ _ => follows_pure trivial
  · exact follows_raise (S.raises_unrefused rfl)

theorem follows_runTryBody (evs : S.Evaluators ev ev') (contexts : S.contexts a b)
    (own : S.owns scope) (body : Value) (clause : Option Value) :
    S.Follows S.GoesOn (Special.runTryBody ev a scope body clause)
      (Special.runTryBody ev' b scope body clause) := by
  rw [Special.runTryBody.eq_def, Special.runTryBody.eq_def]
  refine (evs.enter body (S.nested contexts) own).attempt.bind fun result raised => ?_
  cases result with
  | ok value => exact follows_pure trivial
  | error error =>
      have checked : Unrefused ((clause.map Special.catchClause?).getD (.ok none)) := by
        cases clause with
        | some clause => exact unrefused_catchClause clause
        | none => exact unrefused_ok none
      refine (follows_unrefused checked).bind fun handler _ => ?_
      split
      · exact follows_raise (raised error rfl)
      · refine (S.follows_newScope scope).bind fun inner own => ?_
        exact (follows_define own _ _).bind fun _ _ => follows_pure own

theorem follows_runTry (evs : S.Evaluators ev ev') (contexts : S.contexts a b)
    (own : S.owns scope) (args : List Value) :
    S.Follows S.GoesOn (Special.runTry ev a scope args) (Special.runTry ev' b scope args) := by
  rw [Special.runTry.eq_def, Special.runTry.eq_def]
  split
  · exact follows_runTryBody evs contexts own _ _
  · exact follows_runTryBody evs contexts own _ _
  · exact follows_raise (S.raises_unrefused rfl)

theorem follows_runDo (evs : S.Evaluators ev ev') (contexts : S.contexts a b)
    (own : S.owns scope) : ∀ forms : List Value,
    S.Follows S.GoesOn (Special.runDo ev a scope forms) (Special.runDo ev' b scope forms)
  | [] => follows_pure trivial
  | [_] => follows_pure own
  | form :: next :: forms =>
      (evs.enter form (S.nested contexts) own).bind fun _ _ =>
        follows_runDo evs contexts own (next :: forms)

theorem follows_choose (evs : S.Evaluators ev ev') (contexts : S.contexts a b)
    (own : S.owns scope) (condition yes : Value) (no : Option Value) :
    S.Follows S.GoesOn (Special.choose ev a scope condition yes no)
      (Special.choose ev' b scope condition yes no) := by
  refine (evs.enter condition (S.nested contexts) own).bind fun value _ => ?_
  split
  · exact follows_pure own
  · cases no with
    | some no => exact follows_pure own
    | none => exact follows_pure trivial

theorem follows_runIf (evs : S.Evaluators ev ev') (contexts : S.contexts a b)
    (own : S.owns scope) (args : List Value) :
    S.Follows S.GoesOn (Special.runIf ev a scope args) (Special.runIf ev' b scope args) := by
  rw [Special.runIf.eq_def, Special.runIf.eq_def]
  split
  · exact follows_choose evs contexts own _ _ _
  · exact follows_choose evs contexts own _ _ _
  · exact follows_raise (S.raises_unrefused rfl)

theorem follows_runFn (args : List Value) :
    S.Follows S.GoesOn (Special.runFn scope args) (Special.runFn scope args) := by
  rw [Special.runFn.eq_def]
  split
  · refine (follows_checkParams _ _).bind fun _ _ => ?_
    refine (follows_bodyForm _).bind fun _ _ => ?_
    exact S.follows_newNode.bind fun _ _ => follows_pure trivial
  · exact follows_raise (S.raises_unrefused rfl)

theorem follows_runEvalWhenExecute (evs : S.Evaluators ev ev') (contexts : S.contexts a b)
    (own : S.owns scope) (args : List Value) :
    S.Follows S.GoesOn (Special.runEvalWhenExecute ev a scope args)
      (Special.runEvalWhenExecute ev' b scope args) := by
  rw [Special.runEvalWhenExecute.eq_def, Special.runEvalWhenExecute.eq_def]
  split
  · exact (evs.enter _ (S.nested contexts) own).bind fun _ _ => follows_pure own
  · exact follows_raise (S.raises_unrefused rfl)

theorem follows_special (evs : S.Evaluators ev ev') (contexts : S.contexts a b)
    (own : S.owns scope) (special : Special) (args : List Value) :
    S.Follows S.GoesOn (special.run ev a scope args) (special.run ev' b scope args) := by
  cases special with
  | define => exact follows_runDef evs contexts own args
  | letIn => exact follows_runLet evs contexts args
  | quote => exact follows_runQuote args
  | quasiquote => exact follows_runQuasiquote own args
  | makeMacro => exact follows_runMacro own args
  | macroexpand => exact follows_runMacroexpand evs contexts own args
  | attempt => exact follows_runTry evs contexts own args
  | sequence => exact follows_runDo evs contexts own args
  | conditional => exact follows_runIf evs contexts own args
  | makeFn => exact follows_runFn args
  | evalWhenExecute => exact follows_runEvalWhenExecute evs contexts own args

theorem follows_enterAll (evs : S.Evaluators ev ev') (contexts : S.contexts a b)
    (own : S.owns scope) (forms : List Value) :
    S.Follows Anything (ev.enterAll a scope forms) (ev'.enterAll b scope forms) :=
  follows_mapM (fun form => evs.enter form (S.nested contexts) own) forms

theorem follows_enterEntries (evs : S.Evaluators ev ev') (contexts : S.contexts a b)
    (own : S.owns scope) (entries : List (MapKey × Value)) :
    S.Follows Anything (ev.enterEntries a scope entries)
      (ev'.enterEntries b scope entries) :=
  follows_mapM (fun entry => (evs.enter entry.2 (S.nested contexts) own).bind
    fun _ _ => follows_pure trivial) entries

theorem follows_evalAtom (values : S.RecordsValues) (evs : S.Evaluators ev ev')
    (contexts : S.contexts a b) (own : S.owns scope) (form : Value) :
    S.Follows Anything (ev.evalAtom a scope form) (ev'.evalAtom b scope form) := by
  rw [Evaluator.evalAtom.eq_def, Evaluator.evalAtom.eq_def]
  split
  · exact follows_lookup scope _
  · refine (follows_enterAll evs contexts own _).bind fun items _ => ?_
    refine (S.follows_newSeq .vector items).bind fun value _ => ?_
    exact (follows_stamp contexts _ (values value)).bind fun _ _ => follows_pure trivial
  · refine (follows_enterEntries evs contexts own _).bind fun entries _ => ?_
    refine (S.follows_newMap entries).bind fun value _ => ?_
    exact (follows_stamp contexts _ (values value)).bind fun _ _ => follows_pure trivial
  · exact follows_pure trivial

theorem follows_stepApply (evs : S.Evaluators ev ev') (callee : Value) (args : List Value) :
    S.Follows S.GoesOn (ev.stepApply callee args) (ev'.stepApply callee args) := by
  rw [Evaluator.stepApply.eq_def, Evaluator.stepApply.eq_def]
  split
  · exact (follows_callScope _ _ args).bind fun _ own => follows_pure own
  · exact (evs.apply _ args).bind fun _ _ => follows_pure trivial
  · exact follows_raise (S.raises_unrefused rfl)

theorem follows_stepCall (evs : S.Evaluators ev ev') (contexts : S.contexts a b)
    (own : S.owns scope) (node : NodeId) (head : Value) (args : List Value) :
    S.Follows S.GoesOn (ev.stepCall a scope node head args)
      (ev'.stepCall b scope node head args) := by
  refine (evs.enter head (S.nested contexts) own).bind fun callee _ => ?_
  refine (follows_enterAll evs contexts own args).bind fun values _ => ?_
  exact (follows_stamp contexts node (S.records_applied callee)).bind fun _ _ =>
    follows_stepApply evs callee values

/-- The step of a list records no value. -/
theorem follows_step_list (evs : S.Evaluators ev ev') (contexts : S.contexts a b)
    (own : S.owns scope) {form : Value} (list : form.isList = true) :
    S.Follows S.GoesOn (ev.step a scope form) (ev'.step b scope form) := by
  rw [Evaluator.step.eq_def, Evaluator.step.eq_def]
  split
  · split
    · exact follows_pure trivial
    · split
      · exact follows_special evs contexts own _ _
      · exact follows_stepCall evs contexts own _ _ _
  next atom =>
    cases form with
    | seq node kind items =>
        cases kind with
        | list => exact absurd rfl (atom node items)
        | vector => cases list
    | _ => cases list

theorem follows_step (values : S.RecordsValues) (evs : S.Evaluators ev ev')
    (contexts : S.contexts a b) (own : S.owns scope) (form : Value) :
    S.Follows S.GoesOn (ev.step a scope form) (ev'.step b scope form) := by
  have atom : S.Follows S.GoesOn (do return .done (← ev.evalAtom a scope form))
      (do return .done (← ev'.evalAtom b scope form)) :=
    (follows_evalAtom values evs contexts own form).bind fun _ _ => follows_pure trivial
  cases form with
  | seq node kind items =>
      cases kind with
      | list => exact follows_step_list evs contexts own rfl
      | vector => exact atom
  | _ => exact atom

theorem follows_resolve (evs : S.Evaluators ev ev') (contexts : S.contexts a b)
    (own : S.owns scope) (form : Value) :
    S.Follows Anything (ev.resolve a scope form) (ev'.resolve b scope form) := by
  rw [Evaluator.resolve.eq_def, Evaluator.resolve.eq_def]
  split
  · refine (evs.expand _ contexts own).bind fun expanded _ => ?_
    split
    · exact (follows_stamp contexts _ (S.records_expansion expanded)).bind fun _ _ => follows_pure trivial
    · exact follows_pure trivial
  · exact follows_pure trivial

end Rules

theorem follows_expansion {enter enter' : Context → Value → ScopeId → Eval Value}
    (enters : ∀ {a b : Context} (form : Value) {scope : ScopeId}, S.contexts a b → S.owns scope →
      S.Follows Anything (enter a form scope) (enter' b form scope))
    {a b : Context} (contexts : S.contexts a b) (scope : ScopeId) {fuel fuel' : Nat}
    (more : fuel ≤ fuel') (form : Value) :
    S.Follows Anything (Expansion.run enter a scope fuel form)
      (Expansion.run enter' b scope fuel' form) := by
  -- The induction is on the expansions that the first run may still make; the second may make more.
  induction fuel generalizing fuel' form with
  | zero => exact follows_exhausted _
  | succ fuel ih =>
      obtain ⟨fuel', rfl⟩ : ∃ n, fuel' = n + 1 := ⟨fuel' - 1, by omega⟩
      rw [Expansion.run.eq_def, Expansion.run.eq_def]
      dsimp only
      split
      · exact follows_pure trivial
      · refine (follows_lookup? scope _).bind fun binding? _ => ?_
        split
        · exact follows_pure trivial
        · refine (follows_stampForm contexts form (S.records_applied _)).bind fun _ _ => ?_
          split
          · refine (follows_callScope _ _ _).bind fun inner own => ?_
            refine (enters _ (S.nested contexts) own).bind fun expanded _ => ?_
            exact ih (by omega) expanded
          · exact follows_pure trivial

end Simulation
end AnnotatedLisp
