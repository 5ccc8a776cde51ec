import AnnotatedLisp.Proofs.Refusal
import AnnotatedLisp.Proofs.Simulation.Follows
import AnnotatedLisp.Proofs.Stamps.Record

/-!
Simulations: relations between stores that everything evaluation does to a store respects.

A simulation also says which contexts two runs may have and in which scopes they may make
definitions. Both runs see the same scopes and count the same nodes. One of them may make stamps that
the other does not make, as long as the relation does not look at stamps. Of the changes of stamps that
both make, a simulation need not respect those that record a value. An invariant is a simulation of a run
by itself.

This module follows the parts of evaluation that evaluate nothing themselves: allocation, binding of
parameters and the building of templates.
-/

namespace AnnotatedLisp

open Eval

structure Simulation where
  stores : Store → Store → Prop
  contexts : Context → Context → Prop
  /-- The scopes in which forms are evaluated and names are defined. -/
  owns : ScopeId → Prop
  /-- The errors that may come up: all of them, or all but refusals. -/
  raises : Error → Prop
  raises_unrefused : ∀ {error : Error}, error.isRefusal = false → raises error
  scopes_eq : ∀ {s t : Store}, stores s t → s.scopes = t.scopes
  nextNode_eq : ∀ {s t : Store}, stores s t → s.nextNode = t.nextNode
  countNode : ∀ {s t : Store}, stores s t →
    stores { s with nextNode := s.nextNode + 1 } { t with nextNode := t.nextNode + 1 }
  addScope : ∀ {s t : Store} (outer : ScopeId), stores s t →
    stores (s.addScope (some outer)).2 (t.addScope (some outer)).2
  owns_new : ∀ {s t : Store}, stores s t → owns s.scopes.size
  define : ∀ {s t : Store} {scope : ScopeId} (name : String) (value : Value), owns scope →
    stores s t → stores (s.define scope name value) (t.define scope name value)
  nested : ∀ {a b : Context}, contexts a b → contexts a.nested b.nested
  /-- The changes of stamps that it respects: those that steps make, maybe also those that values make. -/
  records : (Stamps → Stamps) → Prop
  records_applied : ∀ operation : Value,
    records fun stamps => { stamps with applied := some operation }
  records_expansion : ∀ form : Value, records fun stamps => { stamps with expansion := some form }
  stamp : ∀ {a b : Context} {s t : Store} {change : Stamps → Stamps} (node : NodeId),
    records change → contexts a b → a.annotate = true → b.annotate = true → stores s t →
    stores (s.stamp node change) (t.stamp node change)
  stampLeft : ∀ {a b : Context} {s t : Store} {change : Stamps → Stamps} (node : NodeId),
    records change → contexts a b → a.annotate = true → b.annotate = false → stores s t →
    stores (s.stamp node change) t
  stampRight : ∀ {a b : Context} {s t : Store} {change : Stamps → Stamps} (node : NodeId),
    records change → contexts a b → a.annotate = false → b.annotate = true → stores s t →
    stores s (t.stamp node change)

/-- It respects that the value of a form is recorded. -/
def Simulation.RecordsValues (S : Simulation) : Prop :=
  ∀ value : Value, S.records fun stamps => { stamps with evaluated := some value }

theorem Context.nested_eq {a b : Context} (same : a = b) : a.nested = b.nested :=
  congrArg Context.nested same

/-- A property that the stores of one run keep. -/
structure Invariant where
  holds : Store → Prop
  contexts : Context → Prop
  owns : ScopeId → Prop
  raises : Error → Prop
  raises_unrefused : ∀ {error : Error}, error.isRefusal = false → raises error
  countNode : ∀ {s : Store}, holds s → holds { s with nextNode := s.nextNode + 1 }
  addScope : ∀ {s : Store} (outer : ScopeId), holds s → holds (s.addScope (some outer)).2
  owns_new : ∀ {s : Store}, holds s → owns s.scopes.size
  define : ∀ {s : Store} {scope : ScopeId} (name : String) (value : Value), owns scope → holds s →
    holds (s.define scope name value)
  nested : ∀ {a : Context}, contexts a → contexts a.nested
  stamp : ∀ {a : Context} {s : Store} {change : Stamps → Stamps} (node : NodeId), Records change →
    contexts a → a.annotate = true → holds s → holds (s.stamp node change)

/-- The run beside itself. -/
def Invariant.simulation (I : Invariant) : Simulation where
  stores s t := s = t ∧ I.holds s
  contexts a b := a = b ∧ I.contexts a
  owns := I.owns
  raises := I.raises
  raises_unrefused := I.raises_unrefused
  scopes_eq related := congrArg Store.scopes related.1
  nextNode_eq related := congrArg Store.nextNode related.1
  countNode := by
    rintro s _ ⟨rfl, holds⟩
    exact ⟨rfl, I.countNode holds⟩
  addScope := by
    rintro s _ outer ⟨rfl, holds⟩
    exact ⟨rfl, I.addScope outer holds⟩
  owns_new related := I.owns_new related.2
  define := by
    rintro s _ scope name value own ⟨rfl, holds⟩
    exact ⟨rfl, I.define name value own holds⟩
  nested := by
    rintro a _ ⟨rfl, contexts⟩
    exact ⟨rfl, I.nested contexts⟩
  records := Records
  records_applied := .applied
  records_expansion := .expansion
  stamp := by
    rintro a _ s _ change node records ⟨rfl, contexts⟩ on _ ⟨rfl, holds⟩
    exact ⟨rfl, I.stamp node records contexts on holds⟩
  stampLeft := by
    rintro a _ s t change node _ ⟨rfl, _⟩ on off _
    exact absurd (on.symm.trans off) Bool.noConfusion
  stampRight := by
    rintro a _ s t change node _ ⟨rfl, _⟩ off on _
    exact absurd (on.symm.trans off) Bool.noConfusion

namespace Store

theorem lookupWithin_congr {s t : Store} (same : s.scopes = t.scopes) (name : String) (fuel : Nat)
    (id : ScopeId) : s.lookupWithin name fuel id = t.lookupWithin name fuel id := by
  induction fuel generalizing id with
  | zero => rfl
  | succ fuel ih => simp only [lookupWithin, same, ih]

theorem lookup_congr {s t : Store} (same : s.scopes = t.scopes) (name : String) (id : ScopeId) :
    s.lookup name id = t.lookup name id :=
  lookupWithin_congr same name (id + 1) id

end Store

namespace Simulation

variable {α : Type} (S : Simulation)

/-- The second computation follows the first through the simulation. -/
abbrev Follows (fits : α → Prop) (x y : Eval α) : Prop :=
  Eval.Follows S.stores S.raises fits x y

theorem follows_newNode : S.Follows Anything newNode newNode := by
  intro s t related
  rw [newNode_apply, newNode_apply, ← S.nextNode_eq related]
  have counted := S.countNode related
  rw [← S.nextNode_eq related] at counted
  exact .ok trivial counted

theorem follows_newSeq (kind : SeqKind) (items : List Value) :
    S.Follows Anything (newSeq kind items) (newSeq kind items) :=
  S.follows_newNode.bind fun _ _ => follows_pure trivial

theorem follows_newMap (entries : List (MapKey × Value)) :
    S.Follows Anything (newMap entries) (newMap entries) :=
  S.follows_newNode.bind fun _ _ => follows_pure trivial

theorem follows_newScope (outer : ScopeId) :
    S.Follows S.owns (newScope outer) (newScope outer) := by
  intro s t related
  rw [newScope_apply, newScope_apply, ← S.scopes_eq related]
  exact .ok (S.owns_new related) (S.addScope outer related)

variable {S}

theorem follows_unrefused {result : Except Error α} (unrefused : Unrefused result) :
    S.Follows Anything (ofExcept result) (ofExcept result) :=
  follows_ofExcept (fun _ _ => trivial) fun error h => S.raises_unrefused (unrefused error h)

theorem follows_define {scope : ScopeId} (own : S.owns scope) (name : String) (value : Value) :
    S.Follows Anything (Eval.define scope name value) (Eval.define scope name value) := by
  intro s t related
  rw [define_apply, define_apply]
  exact .ok trivial (S.define name value own related)

theorem follows_lookup? (scope : ScopeId) (name : String) :
    S.Follows Anything (lookup? scope name) (lookup? scope name) := by
  intro s t related
  rw [lookup?_apply, lookup?_apply, Store.lookup_congr (S.scopes_eq related)]
  exact .ok trivial related

theorem follows_lookup (scope : ScopeId) (name : String) :
    S.Follows Anything (lookup scope name) (lookup scope name) := by
  refine (follows_lookup? scope name).bind fun value? _ => ?_
  cases value? with
  | some value => exact follows_pure trivial
  | none => exact follows_raise (S.raises_unrefused rfl)

theorem follows_stamp {a b : Context} (contexts : S.contexts a b) (node : NodeId)
    {change : Stamps → Stamps} (records : S.records change) :
    S.Follows Anything (a.stamp node change) (b.stamp node change) := by
  intro s t related
  cases ha : a.annotate <;> cases hb : b.annotate <;> simp only [Context.stamp, ha, hb]
  · exact .ok trivial related
  · exact .ok trivial (S.stampRight node records contexts ha hb related)
  · exact .ok trivial (S.stampLeft node records contexts ha hb related)
  · exact .ok trivial (S.stamp node records contexts ha hb related)

theorem follows_stampForm {a b : Context} (contexts : S.contexts a b) (form : Value)
    {change : Stamps → Stamps} (records : S.records change) :
    S.Follows Anything (a.stampForm form change) (b.stampForm form change) := by
  rw [Context.stampForm, Context.stampForm]
  cases form.nodeLabel? with
  | some node => exact follows_stamp contexts node records
  | none => exact follows_pure trivial

mutual

theorem follows_bind {scope : ScopeId} (own : S.owns scope) :
    ∀ param value : Value, S.Follows Anything (Params.bind scope param value)
      (Params.bind scope param value)
  | .symbol name, value => by
      simpa only [Params.bind] using follows_define own name value
  | .seq _ _ params, value => by
      simp only [Params.bind]
      cases value.elements? with
      | some items =>
          exact (follows_unrefused (unrefused_params _ _)).bind fun _ _ =>
            follows_bindItems own params items
      | none => exact follows_raise (S.raises_unrefused rfl)
  | .nil, _ | .bool _, _ | .number _, _ | .string _, _ | .keyword _, _ | .map _ _, _
  | .native _, _ | .fn _ _ _ _ _, _ => by
      simpa only [Params.bind] using follows_raise (S.raises_unrefused rfl)

theorem follows_bindItems {scope : ScopeId} (own : S.owns scope) :
    ∀ params items : List Value, S.Follows Anything (Params.bindItems scope params items)
      (Params.bindItems scope params items)
  | [], _ => by simpa only [Params.bindItems] using follows_pure trivial
  | param :: params, items => by
      rw [Params.bindItems.eq_def]
      dsimp only
      split
      · cases params with
        | nil => exact follows_pure trivial
        | cons rest _ =>
            exact (S.follows_newSeq .list items).bind fun list _ => follows_bind own rest list
      · cases items with
        | nil => exact follows_pure trivial
        | cons item items =>
            exact (follows_bind own param item).bind fun _ _ => follows_bindItems own params items

end

theorem follows_bindAll {scope : ScopeId} (own : S.owns scope) (params : Value)
    (args : List Value) :
    S.Follows Anything (Params.bindAll scope params args)
      (Params.bindAll scope params args) := by
  rw [Params.bindAll.eq_def]
  split
  · exact (S.follows_newSeq .list args).bind fun list _ => follows_define own _ list
  · exact (follows_unrefused (unrefused_params _ _)).bind fun _ _ => follows_bindItems own _ args
  · exact follows_raise (S.raises_unrefused rfl)

theorem follows_callScope (outer : ScopeId) (params : Value) (args : List Value) :
    S.Follows S.owns (Params.newScope outer params args)
      (Params.newScope outer params args) :=
  (S.follows_newScope outer).bind fun _ own =>
    (follows_bindAll own params args).bind fun _ _ => follows_pure own

theorem follows_templateCall (name : String) (args : List Value) :
    S.Follows Anything (Template.call name args) (Template.call name args) :=
  S.follows_newSeq .list _

mutual

theorem follows_builder : ∀ template : Value,
    S.Follows Anything (Template.builder template) (Template.builder template)
  | .seq label kind items => by
      rw [Template.builder.eq_def]
      dsimp only
      split
      · exact follows_templateCall _ _
      · split
        · exact follows_pure trivial
        · exact follows_itemsBuilder items
  | .nil | .bool _ | .number _ | .string _ | .keyword _ | .symbol _ | .map _ _ | .native _
  | .fn _ _ _ _ _ => by
      simpa only [Template.builder] using follows_templateCall _ _

theorem follows_itemsBuilder : ∀ items : List Value,
    S.Follows Anything (Template.itemsBuilder items) (Template.itemsBuilder items)
  | [] => by
      rw [Template.itemsBuilder.eq_def]
      exact (S.follows_newSeq .list []).bind fun _ _ => follows_templateCall _ _
  | head :: rest => by
      rw [Template.itemsBuilder.eq_def]
      dsimp only
      split
      · exact follows_pure trivial
      · split
        · exact (follows_itemsBuilder rest).bind fun _ _ => follows_templateCall _ _
        · exact (follows_builder head).bind fun _ _ =>
            (follows_itemsBuilder rest).bind fun _ _ => follows_templateCall _ _

end

theorem follows_bodyForm (forms : List Value) :
    S.Follows Anything (Special.bodyForm forms) (Special.bodyForm forms) := by
  rw [Special.bodyForm.eq_def]
  split
  · exact follows_pure trivial
  · exact follows_pure trivial
  · exact S.follows_newSeq .list _

theorem follows_checkParams (form : String) (params : Value) :
    S.Follows Anything (Special.checkParams form params)
      (Special.checkParams form params) := by
  rw [Special.checkParams.eq_def]
  split
  · exact follows_pure trivial
  · exact follows_pure trivial
  · exact follows_raise (S.raises_unrefused rfl)

end Simulation
end AnnotatedLisp
