import AnnotatedLisp.Proofs.Computation
import AnnotatedLisp.Proofs.World.Reached

/-!
What computations on the store are made of.

All that evaluation does to the store it does by a few operations: it makes nodes and scopes, defines names, makes
stamps and writes text. A relation between stores that each of these operations respects is therefore respected by
every evaluation, wherever it stops. Nothing in the store is changed in any other way.
-/

namespace AnnotatedLisp

namespace Eval

/-- The computation is made of the operations that the store offers. -/
inductive Composed : {α : Type} → Eval α → Prop
  | pure {α : Type} (a : α) : Composed (pure a)
  | stop {α : Type} (stop : Stop) : Composed (throw stop : Eval α)
  | bind {α β : Type} {x : Eval α} {f : α → Eval β} (first : Composed x) (next : ∀ a, Composed (f a)) :
      Composed (x >>= f)
  | attempt {α : Type} {x : Eval α} (tried : Composed x) : Composed (attempt x)
  | read : Composed (get : Eval Store)
  | newNode : Composed newNode
  | addScope (outer : Option ScopeId) : Composed (modifyGet fun s => s.addScope outer : Eval ScopeId)
  | define (scope : ScopeId) (name : String) (value : Value) : Composed (define scope name value)
  | stamp (node : NodeId) (change : Stamps → Stamps) : Composed (stamp node change)
  | say (text : String) : Composed (say text)

section After

variable {α β : Type}

/-- The store as a computation leaves it, also where it stops. -/
def after (x : Eval α) (s : Store) : Store :=
  match x s with
  | .ok _ t => t
  | .error _ t => t

theorem after_of_ok {x : Eval α} {s t : Store} {a : α} (h : x s = .ok a t) : x.after s = t := by
  rw [after, h]

theorem after_of_error {x : Eval α} {s t : Store} {stop : Stop} (h : x s = .error stop t) : x.after s = t := by
  rw [after, h]

theorem after_attempt (x : Eval α) (s : Store) : (Eval.attempt x).after s = x.after s := by
  unfold after attempt
  cases x s with
  | ok a t => rfl
  | error stop t => cases stop <;> rfl

end After

/-- A relation between stores that no operation breaks. -/
structure Respected (R : Store → Store → Prop) : Prop where
  refl : ∀ s, R s s
  trans : ∀ {s t u}, R s t → R t u → R s u
  newNode : ∀ s, R s { s with nextNode := s.nextNode + 1 }
  addScope : ∀ s outer, R s (s.addScope outer).2
  define : ∀ s scope name value, R s (s.define scope name value)
  stamp : ∀ s node change, R s (s.stamp node change)
  say : ∀ (s : Store) text, R s { s with output := s.output ++ text }

namespace Composed

variable {α β : Type} {x : Eval α}

/-- What no operation breaks is not broken by what is made of them. -/
theorem respects {R : Store → Store → Prop} (respected : Respected R) (h : Composed x) (s : Store) :
    R s (x.after s) := by
  induction h generalizing s with
  | pure a => exact respected.refl s
  | stop stop => exact respected.refl s
  | @bind α β x f first next ih ih' =>
      have start := ih s
      cases ends : x s with
      | ok a t =>
          rw [after_of_ok ends] at start
          rw [after, bind_of_ok ends]
          exact respected.trans start (ih' a t)
      | error stop t =>
          rw [after_of_error ends] at start
          rw [after_of_error (bind_of_error ends)]
          exact start
  | @attempt α x tried ih =>
      rw [after_attempt]
      exact ih s
  | read => exact respected.refl s
  | newNode => exact respected.newNode s
  | addScope outer => exact respected.addScope s outer
  | define scope name value => exact respected.define s scope name value
  | stamp node change => exact respected.stamp s node change
  | say text => exact respected.say s text

theorem raise (error : Error) : Composed (Eval.raise error : Eval α) :=
  .stop (.error error)

theorem ofExcept (result : Except Error α) : Composed (Eval.ofExcept result) := by
  cases result with
  | ok a => exact .pure a
  | error error => exact .raise error

theorem mapM {f : α → Eval β} (h : ∀ a, Composed (f a)) (items : List α) : Composed (items.mapM f) := by
  induction items with
  | nil => exact .pure []
  | cons item items ih =>
      rw [List.mapM_cons]
      exact (h item).bind fun _ => ih.bind fun _ => .pure _

theorem forM {f : α → Eval Unit} (h : ∀ a, Composed (f a)) (items : List α) : Composed (items.forM f) := by
  induction items with
  | nil => exact .pure ()
  | cons item items ih => exact (h item).bind fun _ => ih

end Composed

section Store

theorem composed_newSeq (kind : SeqKind) (items : List Value) : Composed (newSeq kind items) :=
  .bind .newNode fun _ => .pure _

theorem composed_newMap (entries : List (MapKey × Value)) : Composed (newMap entries) :=
  .bind .newNode fun _ => .pure _

theorem composed_newScope (outer : ScopeId) : Composed (newScope outer) :=
  .addScope (some outer)

theorem composed_lookup? (scope : ScopeId) (name : String) : Composed (lookup? scope name) :=
  .bind .read fun _ => .pure _

theorem composed_lookup (scope : ScopeId) (name : String) : Composed (lookup scope name) := by
  refine .bind (composed_lookup? scope name) fun found => ?_
  cases found with
  | none => exact .raise _
  | some value => exact .pure value

mutual

theorem composed_load : ∀ datum : Datum, Composed (load datum)
  | .nil | .bool _ | .number _ | .string _ | .keyword _ | .symbol _ | .native _ => .pure _
  | .seq _ kind items => (composed_loadItems items).bind fun _ => composed_newSeq kind _
  | .map _ entries => (composed_loadEntries entries).bind fun _ => composed_newMap _
  | .fn _ params body _ _ =>
      (composed_load params).bind fun _ => (composed_load body).bind fun _ => .bind .newNode fun _ => .pure _

theorem composed_loadItems : ∀ items : List Datum, Composed (loadItems items)
  | [] => .pure _
  | item :: items => (composed_load item).bind fun _ => (composed_loadItems items).bind fun _ => .pure _

theorem composed_loadEntries : ∀ entries : List (MapKey × Datum), Composed (loadEntries entries)
  | [] => .pure _
  | (_, value) :: entries =>
      (composed_load value).bind fun _ => (composed_loadEntries entries).bind fun _ => .pure _

end

end Store

end Eval

open Eval

section Binding

mutual

theorem composed_bind (scope : ScopeId) : ∀ param value : Value, Composed (Params.bind scope param value)
  | .symbol name, value => by
      rw [Params.bind]
      exact .define scope name value
  | .seq label kind params, value => by
      rw [Params.bind]
      split
      next items _ => exact (Composed.ofExcept _).bind fun _ => composed_bindItems scope params items
      next => exact .raise _
  | .nil, _ | .bool _, _ | .number _, _ | .string _, _ | .keyword _, _ | .map _ _, _ | .native _, _
  | .fn _ _ _ _ _, _ => .raise _

theorem composed_bindItems (scope : ScopeId) :
    ∀ params items : List Value, Composed (Params.bindItems scope params items)
  | [], _ => by
      rw [Params.bindItems]
      exact .pure ()
  | param :: params, items => by
      rw [Params.bindItems.eq_def]
      dsimp only
      split
      · cases params with
        | nil => exact .pure ()
        | cons rest _ => exact (composed_newSeq .list items).bind fun list => composed_bind scope rest list
      · cases items with
        | nil => exact .pure ()
        | cons item items =>
            exact (composed_bind scope param item).bind fun _ => composed_bindItems scope params items

end

theorem composed_bindAll (scope : ScopeId) (params : Value) (args : List Value) :
    Composed (Params.bindAll scope params args) := by
  cases params with
  | symbol name => exact (composed_newSeq .list args).bind fun list => .define scope name list
  | seq label kind params => exact (Composed.ofExcept _).bind fun _ => composed_bindItems scope params args
  | _ => exact .raise _

theorem composed_callScope (outer : ScopeId) (params : Value) (args : List Value) :
    Composed (Params.newScope outer params args) :=
  (composed_newScope outer).bind fun scope => (composed_bindAll scope params args).bind fun _ => .pure scope

end Binding

section Templates

theorem composed_templateCall (name : String) (args : List Value) : Composed (Template.call name args) :=
  composed_newSeq .list _

mutual

theorem composed_builder : ∀ template : Value, Composed (Template.builder template)
  | .seq label kind items => by
      rw [Template.builder]
      split
      · exact composed_templateCall _ _
      · split
        · exact .pure _
        · exact composed_itemsBuilder items
  | .nil | .bool _ | .number _ | .string _ | .keyword _ | .symbol _ | .map _ _ | .native _
  | .fn _ _ _ _ _ => by
      rw [Template.builder]
      · exact composed_templateCall _ _
      · exact nofun

theorem composed_itemsBuilder : ∀ items : List Value, Composed (Template.itemsBuilder items)
  | [] => by
      rw [Template.itemsBuilder]
      exact (composed_newSeq .list []).bind fun _ => composed_templateCall _ _
  | head :: rest => by
      rw [Template.itemsBuilder]
      split
      · exact .pure _
      · split
        · exact (composed_itemsBuilder rest).bind fun _ => composed_templateCall _ _
        · exact (composed_builder head).bind fun _ =>
            (composed_itemsBuilder rest).bind fun _ => composed_templateCall _ _

end

end Templates

section Operations

theorem composed_operation {operation : Operation} (h : ∀ args, Composed (operation.body args))
    (args : List Value) : Composed (operation.call args) :=
  (Composed.ofExcept _).bind fun _ => (Composed.ofExcept _).bind fun converted => h converted

theorem composed_core (op : CoreOp) (args : List Value) : Composed (op.operation.call args) := by
  refine composed_operation (fun args => ?_) args
  cases op with
  | add | subtract | multiply | equal | less | greater | lessEqual | greaterEqual | not | first | isList
  | isVector | symbol | keyword | str => exact .pure _
  | list | vector | cons | rest => exact composed_newSeq _ _
  | hashMap => exact (Composed.ofExcept _).bind fun _ => composed_newMap _
  | concat => exact (Composed.ofExcept _).bind fun _ => composed_newSeq .list _
  | divide | count | isEmpty => exact (Composed.ofExcept _).bind fun _ => .pure _
  | nth => exact .ofExcept _
  | throw => exact .raise _

end Operations

section Steps

theorem composed_stamp (ctx : Context) (node : NodeId) (change : Stamps → Stamps) :
    Composed (ctx.stamp node change) := by
  unfold Context.stamp
  split
  · exact .stamp node change
  · exact .pure ()

theorem composed_stampForm (ctx : Context) (form : Value) (change : Stamps → Stamps) :
    Composed (ctx.stampForm form change) := by
  unfold Context.stampForm
  split
  · exact composed_stamp ctx _ change
  · exact .pure ()

theorem composed_bodyForm (forms : List Value) : Composed (Special.bodyForm forms) := by
  unfold Special.bodyForm
  split
  · exact .pure _
  · exact .pure _
  · exact composed_newSeq .list _

theorem composed_checkParams (form : String) (params : Value) : Composed (Special.checkParams form params) := by
  unfold Special.checkParams
  split
  · exact .pure ()
  · exact .pure ()
  · exact .raise _

/-- What a step may call is made of the operations of the store. -/
structure Evaluator.Composed (ev : Evaluator) : Prop where
  enter : ∀ ctx form scope, (ev.enter ctx form scope).Composed
  expand : ∀ ctx form scope, (ev.expand ctx form scope).Composed
  apply : ∀ operation args, (ev.apply operation args).Composed

variable {ev : Evaluator}

section Specials

variable (evs : ev.Composed) (ctx : Context) (scope : ScopeId) (args : List Value)

theorem composed_newMacro (params body : Value) : Composed (Special.newMacro scope params body) :=
  (composed_checkParams "macro" params).bind fun _ => .bind .newNode fun _ => .pure _

theorem composed_runMacro : Composed (Special.runMacro scope args) := by
  unfold Special.runMacro
  split
  · exact (composed_newMacro scope _ _).bind fun _ => .pure _
  · exact (composed_newMacro scope _ _).bind fun _ => .bind (.define scope _ _) fun _ => .pure _
  · exact .raise _

theorem composed_runQuote : Composed (Special.runQuote args) := by
  unfold Special.runQuote
  split
  · exact .pure _
  · exact .raise _

theorem composed_runQuasiquote : Composed (Special.runQuasiquote scope args) := by
  unfold Special.runQuasiquote
  split
  · exact (composed_builder _).bind fun _ => .pure _
  · exact .raise _

theorem composed_runFn : Composed (Special.runFn scope args) := by
  unfold Special.runFn
  split
  · exact (composed_checkParams "fn" _).bind fun _ =>
      (composed_bodyForm _).bind fun _ => .bind .newNode fun _ => .pure _
  · exact .raise _

include evs

theorem composed_runDef : Composed (Special.runDef ev ctx scope args) := by
  unfold Special.runDef
  split
  · exact (evs.enter ctx.nested _ scope).bind fun _ => .bind (.define scope _ _) fun _ => .pure _
  · exact .raise _

theorem composed_bindPairs : ∀ bindings : List Value, Composed (Special.bindPairs ev ctx scope bindings)
  | param :: form :: rest =>
      (evs.enter ctx.nested form scope).bind fun value =>
        (composed_bind scope param value).bind fun _ => composed_bindPairs rest
  | [] | [_] => .pure ()

theorem composed_runLet : Composed (Special.runLet ev ctx scope args) := by
  unfold Special.runLet
  split
  · split
    · exact .raise _
    · refine (composed_newScope scope).bind fun inner => (composed_bindPairs evs ctx inner _).bind fun _ => ?_
      split
      · exact .pure _
      · exact (composed_bodyForm _).bind fun _ => .pure _
  · exact .raise _

theorem composed_runMacroexpand : Composed (Special.runMacroexpand ev ctx scope args) := by
  unfold Special.runMacroexpand
  split
  · exact (evs.expand ctx.nested _ scope).bind fun _ => .pure _
  · exact .raise _

theorem composed_runTryBody (body : Value) (clause : Option Value) :
    Composed (Special.runTryBody ev ctx scope body clause) := by
  refine (Composed.attempt (evs.enter ctx.nested body scope)).bind fun result => ?_
  cases result with
  | ok value => exact .pure _
  | error error =>
      refine (Composed.ofExcept _).bind fun handler => ?_
      cases handler with
      | none => exact .raise error
      | some handler =>
          exact (composed_newScope scope).bind fun inner => .bind (.define inner _ _) fun _ => .pure _

theorem composed_runTry : Composed (Special.runTry ev ctx scope args) := by
  unfold Special.runTry
  split
  · exact composed_runTryBody evs ctx scope _ none
  · exact composed_runTryBody evs ctx scope _ _
  · exact .raise _

theorem composed_runDo : ∀ forms : List Value, Composed (Special.runDo ev ctx scope forms)
  | [] => .pure _
  | [_] => .pure _
  | form :: next :: forms =>
      (evs.enter ctx.nested form scope).bind fun _ => composed_runDo (next :: forms)

theorem composed_choose (condition yes : Value) (no : Option Value) :
    Composed (Special.choose ev ctx scope condition yes no) := by
  refine (evs.enter ctx.nested condition scope).bind fun value => ?_
  split
  · exact .pure _
  · cases no <;> exact .pure _

theorem composed_runIf : Composed (Special.runIf ev ctx scope args) := by
  unfold Special.runIf
  split
  · exact composed_choose evs ctx scope _ _ none
  · exact composed_choose evs ctx scope _ _ _
  · exact .raise _

theorem composed_runEvalWhenExecute : Composed (Special.runEvalWhenExecute ev ctx scope args) := by
  unfold Special.runEvalWhenExecute
  split
  · exact (evs.enter ctx.nested _ scope).bind fun _ => .pure _
  · exact .raise _

theorem composed_special (special : Special) : Composed (special.run ev ctx scope args) := by
  cases special with
  | define => exact composed_runDef evs ctx scope args
  | letIn => exact composed_runLet evs ctx scope args
  | quote => exact composed_runQuote args
  | quasiquote => exact composed_runQuasiquote scope args
  | makeMacro => exact composed_runMacro scope args
  | macroexpand => exact composed_runMacroexpand evs ctx scope args
  | attempt => exact composed_runTry evs ctx scope args
  | sequence => exact composed_runDo evs ctx scope args
  | conditional => exact composed_runIf evs ctx scope args
  | makeFn => exact composed_runFn scope args
  | evalWhenExecute => exact composed_runEvalWhenExecute evs ctx scope args

end Specials

section Forms

variable (evs : ev.Composed) (ctx : Context) (scope : ScopeId)

include evs

theorem composed_enterAll (forms : List Value) : Composed (ev.enterAll ctx scope forms) :=
  .mapM (fun form => evs.enter ctx.nested form scope) forms

theorem composed_enterEntries (entries : List (MapKey × Value)) :
    Composed (ev.enterEntries ctx scope entries) := by
  refine .mapM (fun entry => ?_) entries
  exact (evs.enter ctx.nested entry.2 scope).bind fun _ => .pure _

theorem composed_evalAtom (form : Value) : Composed (ev.evalAtom ctx scope form) := by
  cases form with
  | symbol name => exact composed_lookup scope name
  | seq node kind items =>
      exact (composed_enterAll evs ctx scope items).bind fun _ => (composed_newSeq .vector _).bind fun _ =>
        (composed_stamp ctx node _).bind fun _ => .pure _
  | map node entries =>
      exact (composed_enterEntries evs ctx scope entries).bind fun _ => (composed_newMap _).bind fun _ =>
        (composed_stamp ctx node _).bind fun _ => .pure _
  | _ => exact .pure _

theorem composed_stepApply (callee : Value) (args : List Value) : Composed (ev.stepApply callee args) := by
  cases callee with
  | fn label params body outer isMacro => exact (composed_callScope outer params args).bind fun _ => .pure _
  | native operation => exact (evs.apply operation args).bind fun _ => .pure _
  | _ => exact .raise _

theorem composed_stepCall (node : NodeId) (head : Value) (args : List Value) :
    Composed (ev.stepCall ctx scope node head args) :=
  (evs.enter ctx.nested head scope).bind fun _ => (composed_enterAll evs ctx scope args).bind fun _ =>
    (composed_stamp ctx node _).bind fun _ => composed_stepApply evs _ _

theorem composed_step (form : Value) : Composed (ev.step ctx scope form) := by
  unfold Evaluator.step
  split
  · split
    · exact .pure _
    · split
      · exact composed_special evs ctx scope _ _
      · exact composed_stepCall evs ctx scope _ _ _
  · exact (composed_evalAtom evs ctx scope _).bind fun _ => .pure _

theorem composed_resolve (form : Value) : Composed (ev.resolve ctx scope form) := by
  unfold Evaluator.resolve
  split
  · refine (evs.expand ctx _ scope).bind fun expanded => ?_
    dsimp only
    split
    · exact (composed_stamp ctx _ _).bind fun _ => .pure _
    · exact .pure _
  · exact .pure _

end Forms

theorem composed_expansion {enter : Context → Value → ScopeId → Eval Value}
    (enters : ∀ ctx form scope, Composed (enter ctx form scope)) (ctx : Context) (scope : ScopeId)
    (fuel : Nat) (form : Value) : Composed (Expansion.run enter ctx scope fuel form) := by
  induction fuel generalizing form with
  | zero => exact .stop .exhausted
  | succ fuel ih =>
      rw [Expansion.run.eq_def]
      dsimp only
      split
      · exact .pure _
      · refine (composed_lookup? scope _).bind fun bound => ?_
        cases bound with
        | none => exact .pure _
        | some binding =>
            refine (composed_stampForm ctx form _).bind fun _ => ?_
            split
            · exact (composed_callScope _ _ _).bind fun inner => (enters ctx.nested _ inner).bind fun _ => ih _
            · exact .pure _

end Steps

/-- The operations of the host are made of those of the store and of the evaluations that they ask for. A host has
no other way to the store. -/
def Host.Composed (host : Host) : Prop :=
  ∀ {evaluate : Value → ScopeId → Eval Value}, (∀ form scope, (evaluate form scope).Composed) →
    ∀ (name : String) (scope : ScopeId) (args : List Value), (host.call evaluate name scope args).Composed

theorem Host.none_composed : Host.none.Composed :=
  fun _ _ _ _ => .raise _

section Runs

variable {host : Host} {loop : Context → List NodeId → Value → ScopeId → Eval Value}

theorem composed_stampAll (ctx : Context) (visited : List NodeId) (value : Value) :
    Composed (Run.stampAll ctx visited value) :=
  .forM (fun node => composed_stamp ctx node _) visited

theorem composed_enterWith (loops : ∀ ctx visited form scope, Composed (loop ctx visited form scope))
    (ctx : Context) (form : Value) (scope : ScopeId) : Composed (Run.enterWith loop ctx form scope) := by
  rw [Run.enterWith, onFreshStack_eq]
  split
  · exact .raise _
  · split <;> exact loops ctx [] form scope

variable (composed : host.Composed)

include composed

theorem composed_applyWith (loops : ∀ ctx visited form scope, Composed (loop ctx visited form scope))
    (operation : Native) (args : List Value) : Composed (Run.applyWith host loop operation args) := by
  cases operation with
  | core op => exact composed_core op args
  | host name scope => exact composed (composed_enterWith loops (.top false)) name scope args

theorem composed_loop (fuel : Nat) (ctx : Context) (visited : List NodeId) (form : Value) (scope : ScopeId) :
    Composed (Run.loop host fuel ctx visited form scope) := by
  induction fuel generalizing ctx visited form scope with
  | zero => exact .stop .exhausted
  | succ fuel ih =>
      have evs : (Run.evaluator host fuel (Run.loop host fuel)).Composed :=
        ⟨composed_enterWith ih,
          fun ctx form scope => composed_expansion (composed_enterWith ih) ctx scope fuel form,
          composed_applyWith composed ih⟩
      rw [Run.loop]
      refine (composed_resolve evs ctx scope form).bind fun expanded => ?_
      refine (composed_step evs ctx scope expanded).bind fun step => ?_
      cases step with
      | done value => exact (composed_stampAll ctx _ value).bind fun _ => .pure _
      | tail next inner => exact ih ctx _ next inner

/-- Evaluation is made of the operations of the store. -/
theorem composed_evaluate (fuel : Nat) (ctx : Context) (form : Value) (scope : ScopeId) :
    Composed (evaluate host fuel ctx form scope) :=
  composed_enterWith (composed_loop composed fuel) ctx form scope

theorem composed_macroexpand (fuel : Nat) (ctx : Context) (form : Value) (scope : ScopeId) :
    Composed (macroexpand host fuel ctx form scope) :=
  composed_expansion (composed_enterWith (composed_loop composed fuel)) ctx scope fuel form

theorem composed_applyNative (fuel : Nat) (operation : Native) (args : List Value) :
    Composed (applyNative host fuel operation args) :=
  composed_applyWith composed (composed_loop composed fuel) operation args

end Runs

theorem Session.host_composed : Session.host.Composed := by
  intro evaluate _ name scope args
  change Composed (if name = "help" then Session.help.call args else raise (.unboundSymbol name))
  split
  · exact composed_operation (fun _ => .bind (.say helpText) fun _ => .pure _) args
  · exact .raise _

theorem composed_newGlobalScope : Composed newGlobalScope := by
  have defines (scope : ScopeId) (op : CoreOp) : Composed (Eval.define scope op.name (.native (.core op))) :=
    .define scope op.name (.native (.core op))
  exact .bind (.addScope none) fun scope => (Composed.forM (defines scope) CoreOp.all).bind fun _ => .pure scope

namespace Action

/-- The host, if the action has one, is made of the operations of the store. -/
def Composed : Action → Prop
  | evaluate host _ _ _ _ | macroexpand host _ _ _ _ | applyNative host _ _ _ => host.Composed
  | _ => True

theorem composed_run {action : Action} (h : action.Composed) : action.run.Composed := by
  cases action with
  | newScope outer => exact .bind (.addScope outer) fun _ => .pure _
  | newGlobalScope => exact composed_newGlobalScope.bind fun _ => .pure _
  | callScope outer params args => exact (composed_callScope outer params args).bind fun _ => .pure _
  | lookup scope name => exact (composed_lookup scope name).bind fun _ => .pure _
  | define scope name value => exact .bind (.define scope name value) fun _ => .pure _
  | register scope name => exact .bind (.define scope name _) fun _ => .pure _
  | bindAll scope params args => exact (composed_bindAll scope params args).bind fun _ => .pure _
  | load datum => exact (composed_load datum).bind fun _ => .pure _
  | newSeq kind items => exact (composed_newSeq kind items).bind fun _ => .pure _
  | newMap pairs => exact (composed_newMap _).bind fun _ => .pure _
  | quasiquote template => exact (composed_builder template).bind fun _ => .pure _
  | evaluate host fuel ctx form scope =>
      exact (composed_evaluate h fuel ctx form scope).bind fun _ => .pure _
  | macroexpand host fuel ctx form scope =>
      exact (composed_macroexpand h fuel ctx form scope).bind fun _ => .pure _
  | applyNative host fuel operation args =>
      exact (composed_applyNative h fuel operation args).bind fun _ => .pure _
  | recorded node => exact .bind .read fun _ => .pure _
  | forget node => exact .bind (.stamp node _) fun _ => .pure _
  | say text => exact .bind (.say text) fun _ => .pure _

end Action

end AnnotatedLisp
