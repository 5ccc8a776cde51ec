import AnnotatedLisp.Eval.Expansion
import AnnotatedLisp.Eval.Step
import AnnotatedLisp.Proofs.World.Binding

/-!
Steps lead from world to world: where the nested evaluations of an evaluator do, so do the steps taken with
it, for every special form, calls and atoms, and so does macro expansion.
-/

namespace AnnotatedLisp

open Eval

namespace World

/-- What a step comes to is known, and the scope in which it goes on exists. -/
def KnowsStep (w : World) : Step → Prop
  | .done value => w.Knows value
  | .tail form scope => w.Knows form ∧ w.HasScope scope

/-- What a step may call goes on to later worlds, from this world and from all later ones. -/
structure Evaluators (w : World) (ev : Evaluator) : Prop where
  enter : ∀ {v : World}, w.Precedes v → ∀ (ctx : Context) {form : Value} {scope : ScopeId},
    v.Knows form → v.HasScope scope → v.Sustains Knows (ev.enter ctx form scope)
  expand : ∀ {v : World}, w.Precedes v → ∀ (ctx : Context) {form : Value} {scope : ScopeId},
    v.Knows form → v.HasScope scope → v.Sustains Knows (ev.expand ctx form scope)
  apply : ∀ {v : World}, w.Precedes v → ∀ {operation : Native} {args : List Value},
    v.Knows (.native operation) → v.KnowsAll args → v.Sustains Knows (ev.apply operation args)

variable {w v : World}

section Evaluators

variable {ev : Evaluator} (evs : w.Evaluators ev)

include evs

theorem Evaluators.mono (later : w.Precedes v) : v.Evaluators ev where
  enter last := evs.enter (later.trans last)
  expand last := evs.expand (later.trans last)
  apply last := evs.apply (later.trans last)

theorem Evaluators.enters (ctx : Context) {form : Value} {scope : ScopeId} (known : w.Knows form)
    (present : w.HasScope scope) : w.Sustains Knows (ev.enter ctx form scope) :=
  evs.enter (.refl w) ctx known present

end Evaluators

section Specials

variable {ev : Evaluator} {scope : ScopeId} {args : List Value}

theorem sustains_done {value : Value} (known : w.Knows value) :
    w.Sustains KnowsStep (pure (.done value)) :=
  sustains_pure known

theorem sustains_tail {form : Value} (known : w.Knows form) (present : w.HasScope scope) :
    w.Sustains KnowsStep (pure (.tail form scope)) :=
  sustains_pure ⟨known, present⟩

theorem sustains_runDef (evs : w.Evaluators ev) (ctx : Context) (present : w.HasScope scope)
    (known : w.KnowsAll args) : w.Sustains KnowsStep (Special.runDef ev ctx scope args) := by
  rcases args with _ | ⟨target, _ | ⟨form, _ | ⟨extra, others⟩⟩⟩
  · exact sustains_raise trivial
  · cases target <;> exact sustains_raise trivial
  · cases target with
    | symbol name =>
        refine (evs.enters ctx.nested (known form (by simp)) present).bind fun value _ knownValue => ?_
        refine (sustains_define scope name knownValue).bind fun _ later _ => ?_
        exact sustains_done (knownValue.mono later)
    | _ => exact sustains_raise trivial
  · cases target <;> exact sustains_raise trivial

theorem sustains_bindPairs (ctx : Context) (scope : ScopeId) :
    ∀ {w : World} (bindings : List Value), w.Evaluators ev → w.HasScope scope → w.KnowsAll bindings →
      w.Sustains Anything (Special.bindPairs ev ctx scope bindings)
  | _, param :: form :: rest, evs, present, known => by
      have others : ∀ other ∈ rest, _ := fun other mem =>
        known other (List.mem_cons_of_mem param (List.mem_cons_of_mem form mem))
      refine (evs.enters ctx.nested (known form (by simp)) present).bind fun value later knownValue => ?_
      refine (sustains_bind scope param value knownValue).bind fun _ later' _ => ?_
      have later := later.trans later'
      exact sustains_bindPairs ctx scope rest (evs.mono later) (HasScope.mono later present)
        (KnowsAll.mono later others)
  | _, [], _, _, _ | _, [_], _, _, _ => sustains_pure trivial

theorem sustains_runLet (evs : w.Evaluators ev) (ctx : Context) (present : w.HasScope scope)
    (known : w.KnowsAll args) : w.Sustains KnowsStep (Special.runLet ev ctx scope args) := by
  cases args with
  | nil => exact sustains_raise trivial
  | cons bindings body =>
      obtain ⟨knownBindings, knownBody⟩ := List.forall_mem_cons.1 known
      cases bindings with
      | seq label kind bindings =>
          rw [Special.runLet]
          split
          · exact sustains_raise trivial
          · refine (sustains_newScope present).bind fun inner later new => ?_
            refine (sustains_bindPairs ctx inner bindings (evs.mono later) new
              (KnowsAll.mono later knownBindings.items)).bind fun _ later' _ => ?_
            cases body with
            | nil => exact sustains_done knows_nil
            | cons form forms =>
                refine (sustains_bodyForm (KnowsAll.mono (later.trans later') knownBody)).bind
                  fun made later'' knownMade => ?_
                exact sustains_tail knownMade (HasScope.mono (later'.trans later'') new)
      | _ => exact sustains_raise trivial

theorem sustains_runQuote (known : w.KnowsAll args) :
    w.Sustains KnowsStep (Special.runQuote args) := by
  rcases args with _ | ⟨form, _ | ⟨extra, others⟩⟩
  · exact sustains_raise trivial
  · exact sustains_done (known form (by simp))
  · exact sustains_raise trivial

theorem sustains_runQuasiquote (present : w.HasScope scope) (known : w.KnowsAll args) :
    w.Sustains KnowsStep (Special.runQuasiquote scope args) := by
  rcases args with _ | ⟨template, _ | ⟨extra, others⟩⟩
  · exact sustains_raise trivial
  · refine (sustains_builder template (known template (by simp))).bind fun built later made => ?_
    exact sustains_tail made (HasScope.mono later present)
  · exact sustains_raise trivial

theorem sustains_newMacro {params body : Value} (present : w.HasScope scope) (known : w.Knows params)
    (known' : w.Knows body) : w.Sustains Knows (Special.newMacro scope params body) := by
  refine (sustains_checkParams "macro" params).bind fun _ later _ => ?_
  exact sustains_newFn true (known.mono later) (known'.mono later) (HasScope.mono later present)

theorem sustains_runMacro (present : w.HasScope scope) (known : w.KnowsAll args) :
    w.Sustains KnowsStep (Special.runMacro scope args) := by
  rcases args with _ | ⟨first, _ | ⟨second, _ | ⟨third, _ | ⟨extra, others⟩⟩⟩⟩
  · exact sustains_raise trivial
  · cases first <;> exact sustains_raise trivial
  · exact (sustains_newMacro present (known first (by simp)) (known second (by simp))).bind
      fun _ _ made => sustains_done made
  · cases first with
    | symbol name =>
        refine (sustains_newMacro present (known second (by simp)) (known third (by simp))).bind
          fun value _ made => ?_
        refine (sustains_define scope name made).bind fun _ later _ => ?_
        exact sustains_done (made.mono later)
    | _ => exact sustains_raise trivial
  · cases first <;> exact sustains_raise trivial

theorem sustains_runMacroexpand (evs : w.Evaluators ev) (ctx : Context) (present : w.HasScope scope)
    (known : w.KnowsAll args) : w.Sustains KnowsStep (Special.runMacroexpand ev ctx scope args) := by
  rcases args with _ | ⟨form, _ | ⟨extra, others⟩⟩
  · exact sustains_raise trivial
  · exact (evs.expand (.refl w) ctx.nested (known form (by simp)) present).bind
      fun _ _ made => sustains_done made
  · exact sustains_raise trivial

/-- The handler of a clause is part of it. -/
theorem grants_catchClause {clause : Value} (known : w.Knows clause) :
    w.Grants (fun v handler => ∀ named ∈ handler, v.Knows named.2) (Special.catchClause? clause) := by
  have malformed : w.KnowsError Special.catchClause?.malformedCatch := trivial
  rw [Special.catchClause?.eq_def]
  split
  next items =>
    split
    next => exact .error malformed
    next head rest =>
      split
      next =>
        split
        next name handler =>
          have knownHandler : w.Knows handler := known.part (by simp [Form.parts])
          exact .ok (by simpa using knownHandler)
        next => exact .error malformed
      next => exact .ok (by simp)
  next => exact .ok (by simp)

theorem sustains_runTryBody (evs : w.Evaluators ev) (ctx : Context) {body : Value} {clause : Option Value}
    (present : w.HasScope scope) (known : w.Knows body) (known' : ∀ form ∈ clause, w.Knows form) :
    w.Sustains KnowsStep (Special.runTryBody ev ctx scope body clause) := by
  refine (evs.enters ctx.nested known present).attempt.bind fun {v} result later caught => ?_
  cases caught with
  | ok known => exact sustains_done known
  | error known =>
      have checked : v.Grants (fun v handler => ∀ named ∈ handler, v.Knows named.2)
          ((clause.map Special.catchClause?).getD (.ok none)) := by
        cases clause with
        | none => exact .ok (by simp)
        | some clause => exact grants_catchClause ((known' clause rfl).mono later)
      refine (sustains_ofExcept checked).bind fun handler later' knownHandler => ?_
      cases handler with
      | none => exact sustains_raise (KnowsError.mono later' known)
      | some handler =>
          refine (sustains_newScope (HasScope.mono (later.trans later') present)).bind
            fun inner later'' new => ?_
          have knownError := (KnowsError.mono (later'.trans later'') known).caught
          refine (sustains_define inner handler.1 knownError).bind fun _ last _ => ?_
          exact sustains_tail ((knownHandler handler rfl).mono (later''.trans last))
            (HasScope.mono last new)

theorem sustains_runTry (evs : w.Evaluators ev) (ctx : Context) (present : w.HasScope scope)
    (known : w.KnowsAll args) : w.Sustains KnowsStep (Special.runTry ev ctx scope args) := by
  rcases args with _ | ⟨body, _ | ⟨clause, _ | ⟨extra, others⟩⟩⟩
  · exact sustains_raise trivial
  · have none : ∀ form ∈ (none : Option Value), w.Knows form := nofun
    exact sustains_runTryBody evs ctx present (known body (by simp)) none
  · have knownClause : ∀ form ∈ some clause, w.Knows form := by simpa using known clause (by simp)
    exact sustains_runTryBody evs ctx present (known body (by simp)) knownClause
  · exact sustains_raise trivial

theorem sustains_runDo (ctx : Context) (scope : ScopeId) :
    ∀ {w : World} (forms : List Value), w.Evaluators ev → w.HasScope scope → w.KnowsAll forms →
      w.Sustains KnowsStep (Special.runDo ev ctx scope forms)
  | _, [], _, _, _ => sustains_done knows_nil
  | _, [form], _, present, known => sustains_tail (known form (by simp)) present
  | _, form :: next :: forms, evs, present, known => by
      obtain ⟨first, others⟩ := List.forall_mem_cons.1 known
      refine (evs.enters ctx.nested first present).bind fun _ later _ => ?_
      exact sustains_runDo ctx scope (next :: forms) (evs.mono later) (HasScope.mono later present)
        (KnowsAll.mono later others)

theorem sustains_choose (evs : w.Evaluators ev) (ctx : Context) {condition yes : Value}
    {no : Option Value} (present : w.HasScope scope) (known : w.Knows condition) (knownYes : w.Knows yes)
    (knownNo : ∀ form ∈ no, w.Knows form) :
    w.Sustains KnowsStep (Special.choose ev ctx scope condition yes no) := by
  refine (evs.enters ctx.nested known present).bind fun value later _ => ?_
  have present := HasScope.mono later present
  split
  · exact sustains_tail (knownYes.mono later) present
  · cases no with
    | none => exact sustains_done knows_nil
    | some no => exact sustains_tail ((knownNo no rfl).mono later) present

theorem sustains_runIf (evs : w.Evaluators ev) (ctx : Context) (present : w.HasScope scope)
    (known : w.KnowsAll args) : w.Sustains KnowsStep (Special.runIf ev ctx scope args) := by
  rcases args with _ | ⟨condition, _ | ⟨yes, _ | ⟨no, _ | ⟨extra, others⟩⟩⟩⟩
  · exact sustains_raise trivial
  · exact sustains_raise trivial
  · have none : ∀ form ∈ (none : Option Value), w.Knows form := nofun
    exact sustains_choose evs ctx present (known condition (by simp)) (known yes (by simp)) none
  · have knownNo : ∀ form ∈ some no, w.Knows form := by simpa using known no (by simp)
    exact sustains_choose evs ctx present (known condition (by simp)) (known yes (by simp)) knownNo
  · exact sustains_raise trivial

theorem sustains_runFn (present : w.HasScope scope) (known : w.KnowsAll args) :
    w.Sustains KnowsStep (Special.runFn scope args) := by
  rcases args with _ | ⟨params, _ | ⟨form, forms⟩⟩
  · exact sustains_raise trivial
  · exact sustains_raise trivial
  · obtain ⟨knownParams, knownForms⟩ := List.forall_mem_cons.1 known
    refine (sustains_checkParams "fn" params).bind fun _ later _ => ?_
    refine (sustains_bodyForm (KnowsAll.mono later knownForms)).bind fun body later' knownBody => ?_
    have later := later.trans later'
    have made := sustains_newFn false (knownParams.mono later) knownBody (HasScope.mono later present)
    exact made.bind (f := fun value => pure (Step.done value)) fun _ _ known => sustains_done known

theorem sustains_runEvalWhenExecute (evs : w.Evaluators ev) (ctx : Context) (present : w.HasScope scope)
    (known : w.KnowsAll args) :
    w.Sustains KnowsStep (Special.runEvalWhenExecute ev ctx scope args) := by
  rcases args with _ | ⟨form, _ | ⟨extra, others⟩⟩
  · exact sustains_raise trivial
  · refine (evs.enters ctx.nested (known form (by simp)) present).bind fun _ later made => ?_
    exact sustains_tail made (HasScope.mono later present)
  · exact sustains_raise trivial

theorem sustains_special (evs : w.Evaluators ev) (ctx : Context) (special : Special)
    (present : w.HasScope scope) (known : w.KnowsAll args) :
    w.Sustains KnowsStep (special.run ev ctx scope args) := by
  cases special with
  | define => exact sustains_runDef evs ctx present known
  | letIn => exact sustains_runLet evs ctx present known
  | quote => exact sustains_runQuote known
  | quasiquote => exact sustains_runQuasiquote present known
  | makeMacro => exact sustains_runMacro present known
  | macroexpand => exact sustains_runMacroexpand evs ctx present known
  | attempt => exact sustains_runTry evs ctx present known
  | sequence => exact sustains_runDo ctx scope args evs present known
  | conditional => exact sustains_runIf evs ctx present known
  | makeFn => exact sustains_runFn present known
  | evalWhenExecute => exact sustains_runEvalWhenExecute evs ctx present known

end Specials

section Forms

variable {ev : Evaluator} {scope : ScopeId}

theorem sustains_enterAll (evs : w.Evaluators ev) (ctx : Context) {forms : List Value}
    (present : w.HasScope scope) (known : w.KnowsAll forms) :
    w.Sustains KnowsAll (ev.enterAll ctx scope forms) :=
  sustains_mapM (fun later fit => fit.mono later) fun form mem _ later =>
    evs.enter later ctx.nested ((known form mem).mono later) (HasScope.mono later present)

theorem sustains_enterEntries (evs : w.Evaluators ev) (ctx : Context) {entries : List (MapKey × Value)}
    (present : w.HasScope scope) (known : w.KnowsEntries entries) :
    w.Sustains KnowsEntries (ev.enterEntries ctx scope entries) :=
  sustains_mapM (p := fun v (entry : MapKey × Value) => v.Knows entry.2) (fun later fit => fit.mono later)
    fun entry mem _ later =>
      (evs.enter later ctx.nested ((known entry mem).mono later) (HasScope.mono later present)).bind
        fun _ _ made => sustains_pure made

theorem sustains_evaluated (ctx : Context) (node : NodeId) {value : Value} (known : w.Knows value) :
    w.Sustains Anything (ctx.stamp node fun stamps => { stamps with evaluated := some value }) :=
  sustains_stamp ctx node fun _ => KnowsStamps.withEvaluated known

theorem sustains_evalAtom (evs : w.Evaluators ev) (ctx : Context) {form : Value}
    (present : w.HasScope scope) (known : w.Knows form) :
    w.Sustains Knows (ev.evalAtom ctx scope form) := by
  cases form with
  | symbol name => exact sustains_lookup scope name
  | seq node kind items =>
      refine (sustains_enterAll evs ctx present known.items).bind fun values _ made => ?_
      refine (sustains_newSeq .vector made).bind fun value _ made => ?_
      exact (sustains_evaluated ctx node made).bind fun _ later _ => sustains_pure (made.mono later)
  | map node entries =>
      refine (sustains_enterEntries evs ctx present known.entries).bind fun values _ made => ?_
      refine (sustains_newMap made).bind fun value _ made => ?_
      exact (sustains_evaluated ctx node made).bind fun _ later _ => sustains_pure (made.mono later)
  | _ => exact sustains_pure known

theorem sustains_stepApply (evs : w.Evaluators ev) {callee : Value} {args : List Value}
    (known : w.Knows callee) (knownArgs : w.KnowsAll args) :
    w.Sustains KnowsStep (ev.stepApply callee args) := by
  cases callee with
  | fn label params body outer isMacro =>
      obtain ⟨_, knownBody, present⟩ := known.function
      refine (sustains_callScope present params knownArgs).bind fun inner later new => ?_
      exact sustains_tail (knownBody.mono later) new
  | native operation =>
      exact (evs.apply (.refl w) known knownArgs).bind fun _ _ made => sustains_done made
  | _ => exact sustains_raise trivial

theorem sustains_stepCall (evs : w.Evaluators ev) (ctx : Context) (node : NodeId) {head : Value}
    {args : List Value} (present : w.HasScope scope) (known : w.Knows head)
    (knownArgs : w.KnowsAll args) : w.Sustains KnowsStep (ev.stepCall ctx scope node head args) := by
  refine (evs.enters ctx.nested known present).bind fun callee later knownCallee => ?_
  refine (sustains_enterAll (evs.mono later) ctx (HasScope.mono later present)
    (KnowsAll.mono later knownArgs)).bind fun values later' knownValues => ?_
  have knownCallee := knownCallee.mono later'
  refine (sustains_stamp ctx node fun _ => KnowsStamps.withApplied knownCallee).bind fun _ last _ => ?_
  exact sustains_stepApply (evs.mono ((later.trans later').trans last)) (knownCallee.mono last)
    (KnowsAll.mono last knownValues)

theorem sustains_step (evs : w.Evaluators ev) (ctx : Context) {form : Value}
    (present : w.HasScope scope) (known : w.Knows form) :
    w.Sustains KnowsStep (ev.step ctx scope form) := by
  have atom : w.Sustains KnowsStep (do return .done (← ev.evalAtom ctx scope form)) :=
    (sustains_evalAtom evs ctx present known).bind fun _ _ made => sustains_done made
  cases form with
  | seq node kind items =>
      cases kind with
      | vector => exact atom
      | list =>
          cases items with
          | nil => exact sustains_done known
          | cons head args =>
              obtain ⟨knownHead, knownArgs⟩ := List.forall_mem_cons.1 known.items
              rw [Evaluator.step]
              cases Special.ofHead? head with
              | some special => exact sustains_special evs ctx special present knownArgs
              | none => exact sustains_stepCall evs ctx node present knownHead knownArgs
  | _ => exact atom

theorem sustains_resolve (evs : w.Evaluators ev) (ctx : Context) {form : Value}
    (present : w.HasScope scope) (known : w.Knows form) :
    w.Sustains Knows (ev.resolve ctx scope form) := by
  cases form with
  | seq node kind items =>
      cases kind with
      | vector => exact sustains_pure known
      | list =>
          refine (evs.expand (.refl w) ctx known present).bind fun expanded _ made => ?_
          dsimp only
          split
          · exact (sustains_stamp ctx node fun _ => KnowsStamps.withExpansion made).bind
              fun _ later _ => sustains_pure (made.mono later)
          · exact sustains_pure made
  | _ => exact sustains_pure known

end Forms

section Expansions

theorem mem_of_callArgs {form arg : Value} (mem : arg ∈ Expansion.callArgs form) : arg ∈ form.parts := by
  cases form with
  | seq label kind items =>
      cases items with
      | nil => cases mem
      | cons head args => exact List.mem_cons_of_mem head mem
  | _ => cases mem

theorem sustains_expansion {enter : Context → Value → ScopeId → Eval Value}
    (enters : ∀ {v : World}, w.Precedes v → ∀ (ctx : Context) {form : Value} {scope : ScopeId},
      v.Knows form → v.HasScope scope → v.Sustains Knows (enter ctx form scope))
    (ctx : Context) {scope : ScopeId} (fuel : Nat) {form : Value} (present : w.HasScope scope)
    (known : w.Knows form) : w.Sustains Knows (Expansion.run enter ctx scope fuel form) := by
  -- Each expansion is known in a later world than the form before it.
  induction fuel generalizing w form with
  | zero => exact sustains_exhausted
  | succ fuel ih =>
      rw [Expansion.run.eq_def]
      dsimp only
      cases Expansion.callHead? form with
      | none => exact sustains_pure known
      | some name =>
          refine (sustains_lookup? scope name).bind fun binding? later knownBinding => ?_
          cases binding? with
          | none => exact sustains_pure (known.mono later)
          | some binding =>
              have knownBinding := knownBinding binding rfl
              refine (sustains_stampForm ctx form fun _ => KnowsStamps.withApplied knownBinding).bind
                fun _ later' _ => ?_
              have later := later.trans later'
              have known := known.mono later
              cases binding with
              | fn label params body outer isMacro =>
                  cases isMacro with
                  | false => exact sustains_pure known
                  | true =>
                      obtain ⟨_, knownBody, presentOuter⟩ := (knownBinding.mono later').function
                      have knownArgs : KnowsAll _ (Expansion.callArgs form) := fun _ mem =>
                        known.part (mem_of_callArgs mem)
                      refine (sustains_callScope presentOuter params knownArgs).bind
                        fun inner called new => ?_
                      refine (enters (later.trans called) ctx.nested (knownBody.mono called) new).bind
                        fun expanded entered made => ?_
                      have later := (later.trans called).trans entered
                      exact ih (fun last => enters (later.trans last)) (HasScope.mono later present) made
              | _ => exact sustains_pure known

end Expansions

end World

end AnnotatedLisp
