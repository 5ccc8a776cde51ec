import AnnotatedLisp.Eval.Expansion
import AnnotatedLisp.Eval.Step
import AnnotatedLisp.Proofs.Renaming.Binding

/-!
Steps under a renaming of nodes: where the nested evaluations of two evaluators correspond, so do the steps
taken with them, for every special form, calls and atoms, and so does macro expansion.

Whether a run makes stamps does not matter.
-/

namespace AnnotatedLisp

open Eval

/-- The contexts differ at most in whether stamps are made. -/
structure Context.Alike (a b : Context) : Prop where
  limit : a.limit = b.limit
  depth : a.depth = b.depth

theorem Context.Alike.refl (ctx : Context) : ctx.Alike ctx :=
  ⟨rfl, rfl⟩

theorem Context.Alike.symm {a b : Context} (alike : a.Alike b) : b.Alike a :=
  ⟨alike.limit.symm, alike.depth.symm⟩

theorem Context.Alike.nested {a b : Context} (alike : a.Alike b) : a.nested.Alike b.nested :=
  ⟨alike.limit, congrArg (· + 1) alike.depth⟩

def Step.relabel (f : NodeId → NodeId) : Step → Step
  | .done value => .done (value.relabel f)
  | .tail form scope => .tail (form.relabel f) scope

namespace Renaming

variable {r : Renaming}

abbrev step (r : Renaming) : Step → Step :=
  Step.relabel r.rename

/-- What the steps of two runs may call. -/
structure Evaluators (r : Renaming) (ev ev' : Evaluator) : Prop where
  enter : ∀ {a b : Context}, a.Alike b → ∀ (form : Value) (scope : ScopeId),
    r.Carries r.value (ev.enter a form scope) (ev'.enter b (r.value form) scope)
  expand : ∀ {a b : Context}, a.Alike b → ∀ (form : Value) (scope : ScopeId),
    r.Carries r.value (ev.expand a form scope) (ev'.expand b (r.value form) scope)
  apply : ∀ (operation : Native) (args : List Value),
    r.Carries r.value (ev.apply operation args) (ev'.apply operation (args.map r.value))

section Specials

theorem catchClause?_value (clause : Value) :
    Special.catchClause? (r.value clause) =
      r.result (Option.map (Prod.map id r.value)) (Special.catchClause? clause) := by
  cases clause with
  | seq label kind items =>
      rw [value, Form.relabel_seq]
      cases kind with
      | vector => rfl
      | list =>
          cases items with
          | nil => rfl
          | cons head rest =>
              rw [List.map_cons, Special.catchClause?.eq_def, Special.catchClause?.eq_def]
              dsimp only
              rw [Form.isSymbol_relabel]
              split
              · rcases rest with _ | ⟨name, _ | ⟨handler, _ | ⟨extra, others⟩⟩⟩
                · rfl
                · cases name <;> rfl
                · cases name <;> rfl
                · cases name <;> rfl
              · rfl
  | _ => rfl

variable {ev ev' : Evaluator} {a b : Context}

theorem carries_runDef (evs : r.Evaluators ev ev') (alike : a.Alike b) (scope : ScopeId)
    (args : List Value) :
    r.Carries r.step (Special.runDef ev a scope args)
      (Special.runDef ev' b scope (args.map r.value)) := by
  rcases args with _ | ⟨target, _ | ⟨form, _ | ⟨extra, others⟩⟩⟩
  · exact carries_raise _
  · cases target <;> exact carries_raise _
  · cases target with
    | symbol name =>
        exact (evs.enter alike.nested form scope).bind fun value =>
          (carries_define scope name value).bind fun _ => carries_pure rfl
    | _ => exact carries_raise _
  · cases target <;> exact carries_raise _

theorem carries_bindPairs (evs : r.Evaluators ev ev') (alike : a.Alike b) (scope : ScopeId) :
    ∀ bindings : List Value, r.Carries id (Special.bindPairs ev a scope bindings)
      (Special.bindPairs ev' b scope (bindings.map r.value))
  | param :: form :: rest =>
      (evs.enter alike.nested form scope).bind fun value =>
        (carries_bind scope param value).bind fun _ => carries_bindPairs evs alike scope rest
  | [] | [_] => carries_pure rfl

theorem carries_runLet (evs : r.Evaluators ev ev') (alike : a.Alike b) (scope : ScopeId)
    (args : List Value) :
    r.Carries r.step (Special.runLet ev a scope args)
      (Special.runLet ev' b scope (args.map r.value)) := by
  cases args with
  | nil => exact carries_raise _
  | cons bindings body =>
      cases bindings with
      | seq label kind bindings =>
          rw [List.map_cons, value, Form.relabel_seq, Special.runLet, Special.runLet, List.length_map]
          split
          · exact carries_raise _
          · refine (carries_newScope scope).bind fun inner => ?_
            refine (carries_bindPairs evs alike inner bindings).bind fun _ => ?_
            cases body with
            | nil => exact carries_pure rfl
            | cons form forms =>
                exact (carries_bodyForm (form :: forms)).bind fun _ => carries_pure rfl
      | _ => exact carries_raise _

theorem carries_runQuote (args : List Value) :
    r.Carries r.step (Special.runQuote args) (Special.runQuote (args.map r.value)) := by
  rcases args with _ | ⟨form, _ | ⟨extra, others⟩⟩
  · exact carries_raise _
  · exact carries_pure rfl
  · exact carries_raise _

theorem carries_runQuasiquote (scope : ScopeId) (args : List Value) :
    r.Carries r.step (Special.runQuasiquote scope args)
      (Special.runQuasiquote scope (args.map r.value)) := by
  rcases args with _ | ⟨template, _ | ⟨extra, others⟩⟩
  · exact carries_raise _
  · exact (carries_builder template).bind fun _ => carries_pure rfl
  · exact carries_raise _

theorem carries_newMacro (scope : ScopeId) (params body : Value) :
    r.Carries r.value (Special.newMacro scope params body)
      (Special.newMacro scope (r.value params) (r.value body)) :=
  (carries_checkParams "macro" params).bind fun _ => carries_newNode.bind fun _ => carries_pure rfl

theorem carries_runMacro (scope : ScopeId) (args : List Value) :
    r.Carries r.step (Special.runMacro scope args) (Special.runMacro scope (args.map r.value)) := by
  rcases args with _ | ⟨first, _ | ⟨second, _ | ⟨third, _ | ⟨extra, others⟩⟩⟩⟩
  · exact carries_raise _
  · cases first <;> exact carries_raise _
  · exact (carries_newMacro scope first second).bind fun _ => carries_pure rfl
  · cases first with
    | symbol name =>
        exact (carries_newMacro scope second third).bind fun value =>
          (carries_define scope name value).bind fun _ => carries_pure rfl
    | _ => exact carries_raise _
  · cases first <;> exact carries_raise _

theorem carries_runMacroexpand (evs : r.Evaluators ev ev') (alike : a.Alike b) (scope : ScopeId)
    (args : List Value) :
    r.Carries r.step (Special.runMacroexpand ev a scope args)
      (Special.runMacroexpand ev' b scope (args.map r.value)) := by
  rcases args with _ | ⟨form, _ | ⟨extra, others⟩⟩
  · exact carries_raise _
  · exact (evs.expand alike.nested form scope).bind fun _ => carries_pure rfl
  · exact carries_raise _

theorem carries_runTryBody (evs : r.Evaluators ev ev') (alike : a.Alike b) (scope : ScopeId)
    (body : Value) (clause : Option Value) :
    r.Carries r.step (Special.runTryBody ev a scope body clause)
      (Special.runTryBody ev' b scope (r.value body) (clause.map r.value)) := by
  refine (evs.enter alike.nested body scope).attempt.bind fun result => ?_
  cases result with
  | ok value => exact carries_pure rfl
  | error error =>
      have checked : ((clause.map r.value).map Special.catchClause?).getD (.ok none) =
          r.result (Option.map (Prod.map id r.value))
            ((clause.map Special.catchClause?).getD (.ok none)) := by
        cases clause with
        | none => rfl
        | some clause => exact catchClause?_value clause
      refine (carries_ofExcept checked).bind fun handler => ?_
      cases handler with
      | none => exact carries_raise error
      | some handler =>
          refine (carries_newScope scope).bind fun inner => ?_
          rw [Error.caught_relabel]
          exact (carries_define inner handler.1 error.caught).bind fun _ => carries_pure rfl

theorem carries_runTry (evs : r.Evaluators ev ev') (alike : a.Alike b) (scope : ScopeId)
    (args : List Value) :
    r.Carries r.step (Special.runTry ev a scope args)
      (Special.runTry ev' b scope (args.map r.value)) := by
  rcases args with _ | ⟨body, _ | ⟨clause, _ | ⟨extra, others⟩⟩⟩
  · exact carries_raise _
  · exact carries_runTryBody evs alike scope body none
  · exact carries_runTryBody evs alike scope body (some clause)
  · exact carries_raise _

theorem carries_runDo (evs : r.Evaluators ev ev') (alike : a.Alike b) (scope : ScopeId) :
    ∀ forms : List Value, r.Carries r.step (Special.runDo ev a scope forms)
      (Special.runDo ev' b scope (forms.map r.value))
  | [] => carries_pure rfl
  | [_] => carries_pure rfl
  | form :: next :: forms =>
      (evs.enter alike.nested form scope).bind fun _ =>
        carries_runDo evs alike scope (next :: forms)

theorem carries_choose (evs : r.Evaluators ev ev') (alike : a.Alike b) (scope : ScopeId)
    (condition yes : Value) (no : Option Value) :
    r.Carries r.step (Special.choose ev a scope condition yes no)
      (Special.choose ev' b scope (r.value condition) (r.value yes) (no.map r.value)) := by
  refine (evs.enter alike.nested condition scope).bind fun value => ?_
  rw [Form.isTruthy_relabel]
  split
  · exact carries_pure rfl
  · cases no <;> exact carries_pure rfl

theorem carries_runIf (evs : r.Evaluators ev ev') (alike : a.Alike b) (scope : ScopeId)
    (args : List Value) :
    r.Carries r.step (Special.runIf ev a scope args)
      (Special.runIf ev' b scope (args.map r.value)) := by
  rcases args with _ | ⟨condition, _ | ⟨yes, _ | ⟨no, _ | ⟨extra, others⟩⟩⟩⟩
  · exact carries_raise _
  · exact carries_raise _
  · exact carries_choose evs alike scope condition yes none
  · exact carries_choose evs alike scope condition yes (some no)
  · exact carries_raise _

theorem carries_runFn (scope : ScopeId) (args : List Value) :
    r.Carries r.step (Special.runFn scope args) (Special.runFn scope (args.map r.value)) := by
  rcases args with _ | ⟨params, _ | ⟨form, forms⟩⟩
  · exact carries_raise _
  · exact carries_raise _
  · refine (carries_checkParams "fn" params).bind fun _ => ?_
    refine (carries_bodyForm (form :: forms)).bind fun _ => ?_
    exact carries_newNode.bind fun _ => carries_pure rfl

theorem carries_runEvalWhenExecute (evs : r.Evaluators ev ev') (alike : a.Alike b) (scope : ScopeId)
    (args : List Value) :
    r.Carries r.step (Special.runEvalWhenExecute ev a scope args)
      (Special.runEvalWhenExecute ev' b scope (args.map r.value)) := by
  rcases args with _ | ⟨form, _ | ⟨extra, others⟩⟩
  · exact carries_raise _
  · exact (evs.enter alike.nested form scope).bind fun _ => carries_pure rfl
  · exact carries_raise _

theorem carries_special (evs : r.Evaluators ev ev') (alike : a.Alike b) (scope : ScopeId)
    (special : Special) (args : List Value) :
    r.Carries r.step (special.run ev a scope args)
      (special.run ev' b scope (args.map r.value)) := by
  cases special with
  | define => exact carries_runDef evs alike scope args
  | letIn => exact carries_runLet evs alike scope args
  | quote => exact carries_runQuote args
  | quasiquote => exact carries_runQuasiquote scope args
  | makeMacro => exact carries_runMacro scope args
  | macroexpand => exact carries_runMacroexpand evs alike scope args
  | attempt => exact carries_runTry evs alike scope args
  | sequence => exact carries_runDo evs alike scope args
  | conditional => exact carries_runIf evs alike scope args
  | makeFn => exact carries_runFn scope args
  | evalWhenExecute => exact carries_runEvalWhenExecute evs alike scope args

end Specials

section Forms

theorem ofHead?_value (head : Value) :
    Special.ofHead? (r.value head) = Special.ofHead? head := by
  cases head <;> rfl

theorem isSameNode_value (x y : Value) :
    Value.isSameNode (r.value x) (r.value y) = Value.isSameNode x y := by
  have told (m n : NodeId) : (r.rename m == r.rename n) = (m == n) := by
    rw [Bool.eq_iff_iff, beq_iff_eq, beq_iff_eq]
    exact r.injective.eq_iff
  cases x <;> cases y <;> first | rfl | exact told _ _

variable {ev ev' : Evaluator} {a b : Context}

theorem carries_enterAll (evs : r.Evaluators ev ev') (alike : a.Alike b) (scope : ScopeId)
    (forms : List Value) :
    r.Carries (List.map r.value) (ev.enterAll a scope forms)
      (ev'.enterAll b scope (forms.map r.value)) :=
  carries_mapM (fun form => evs.enter alike.nested form scope) forms

theorem carries_enterEntries (evs : r.Evaluators ev ev') (alike : a.Alike b) (scope : ScopeId)
    (entries : List (MapKey × Value)) :
    r.Carries (List.map (Prod.map id r.value)) (ev.enterEntries a scope entries)
      (ev'.enterEntries b scope (entries.map (Prod.map id r.value))) :=
  carries_mapM (fun entry => by
    refine (evs.enter alike.nested entry.2 scope).bind fun value => ?_
    exact carries_pure rfl) entries

theorem carries_evalAtom (evs : r.Evaluators ev ev') (alike : a.Alike b) (scope : ScopeId)
    (form : Value) :
    r.Carries r.value (ev.evalAtom a scope form) (ev'.evalAtom b scope (r.value form)) := by
  cases form with
  | symbol name => exact carries_lookup scope name
  | seq node kind items =>
      rw [value, Form.relabel_seq]
      refine (carries_enterAll evs alike scope items).bind fun items => ?_
      refine (carries_newSeq .vector items).bind fun made => ?_
      exact (carries_stamp a b _ _ _ _).bind fun _ => carries_pure rfl
  | map node entries =>
      rw [value, Form.relabel_map]
      refine (carries_enterEntries evs alike scope entries).bind fun entries => ?_
      refine (carries_newMap entries).bind fun made => ?_
      exact (carries_stamp a b _ _ _ _).bind fun _ => carries_pure rfl
  | _ => exact carries_pure rfl

theorem carries_uncallable (callee : Value) :
    r.Carries r.step (raise (.uncallable callee)) (raise (.uncallable (r.value callee))) := by
  rw [Error.uncallable, Error.uncallable, Form.kindName_relabel, Form.text_relabel]
  exact carries_raise _

theorem carries_stepApply (evs : r.Evaluators ev ev') (callee : Value) (args : List Value) :
    r.Carries r.step (ev.stepApply callee args)
      (ev'.stepApply (r.value callee) (args.map r.value)) := by
  cases callee with
  | fn label params body outer isMacro =>
      exact (carries_callScope outer params args).bind fun _ => carries_pure rfl
  | native operation => exact (evs.apply operation args).bind fun _ => carries_pure rfl
  | _ => exact carries_uncallable _

theorem carries_stepCall (evs : r.Evaluators ev ev') (alike : a.Alike b) (scope : ScopeId)
    (node node' : NodeId) (head : Value) (args : List Value) :
    r.Carries r.step (ev.stepCall a scope node head args)
      (ev'.stepCall b scope node' (r.value head) (args.map r.value)) := by
  refine (evs.enter alike.nested head scope).bind fun callee => ?_
  refine (carries_enterAll evs alike scope args).bind fun values => ?_
  exact (carries_stamp a b _ _ _ _).bind fun _ => carries_stepApply evs callee values

theorem carries_step (evs : r.Evaluators ev ev') (alike : a.Alike b) (scope : ScopeId) (form : Value) :
    r.Carries r.step (ev.step a scope form) (ev'.step b scope (r.value form)) := by
  have atom : r.Carries r.step (do return .done (← ev.evalAtom a scope form))
      (do return .done (← ev'.evalAtom b scope (r.value form))) :=
    (carries_evalAtom evs alike scope form).bind fun _ => carries_pure rfl
  cases form with
  | seq node kind items =>
      cases kind with
      | vector => exact atom
      | list =>
          cases items with
          | nil => exact carries_pure rfl
          | cons head args =>
              rw [value, Form.relabel_seq, List.map_cons, Evaluator.step, Evaluator.step, ofHead?_value]
              cases Special.ofHead? head with
              | some special => exact carries_special evs alike scope special args
              | none => exact carries_stepCall evs alike scope _ _ head args
  | _ => exact atom

theorem carries_resolve (evs : r.Evaluators ev ev') (alike : a.Alike b) (scope : ScopeId)
    (form : Value) :
    r.Carries r.value (ev.resolve a scope form) (ev'.resolve b scope (r.value form)) := by
  cases form with
  | seq node kind items =>
      cases kind with
      | vector => exact carries_pure rfl
      | list =>
          refine (evs.expand alike (.seq node .list items) scope).bind fun expanded => ?_
          rw [isSameNode_value]
          split
          · exact (carries_stamp a b _ _ _ _).bind fun _ => carries_pure rfl
          · exact carries_pure rfl
  | _ => exact carries_pure rfl

end Forms

section Expansions

theorem callHead?_value (form : Value) :
    Expansion.callHead? (r.value form) = Expansion.callHead? form := by
  rcases form with _ | _ | _ | _ | _ | _ | ⟨label, _ | _, _ | ⟨head, args⟩⟩ | _ | _ | _ <;> try rfl
  cases head <;> rfl

theorem callArgs_value (form : Value) :
    Expansion.callArgs (r.value form) = (Expansion.callArgs form).map r.value := by
  cases form with
  | seq label kind items =>
      rw [value, Form.relabel_seq]
      cases items <;> rfl
  | _ => rfl

theorem carries_expansion {enter enter' : Context → Value → ScopeId → Eval Value}
    (enters : ∀ {a b : Context}, a.Alike b → ∀ (form : Value) (scope : ScopeId),
      r.Carries r.value (enter a form scope) (enter' b (r.value form) scope))
    {a b : Context} (alike : a.Alike b) (scope : ScopeId) (fuel : Nat) (form : Value) :
    r.Carries r.value (Expansion.run enter a scope fuel form)
      (Expansion.run enter' b scope fuel (r.value form)) := by
  induction fuel generalizing form with
  | zero => exact carries_exhausted
  | succ fuel ih =>
      rw [Expansion.run.eq_def, Expansion.run.eq_def]
      dsimp only
      rw [callHead?_value]
      cases Expansion.callHead? form with
      | none => exact carries_pure rfl
      | some name =>
          refine (carries_lookup? scope name).bind fun binding? => ?_
          cases binding? with
          | none => exact carries_pure rfl
          | some binding =>
              refine (carries_stampForm a b _ _ _ _).bind fun _ => ?_
              cases binding with
              | fn label params body outer isMacro =>
                  cases isMacro with
                  | false => exact carries_pure rfl
                  | true =>
                      dsimp only
                      rw [callArgs_value]
                      refine (carries_callScope outer params _).bind fun inner => ?_
                      exact (enters alike.nested body inner).bind fun expanded => ih expanded
              | _ => exact carries_pure rfl

end Expansions

end Renaming

end AnnotatedLisp
