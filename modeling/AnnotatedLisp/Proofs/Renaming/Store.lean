import AnnotatedLisp.Proofs.Computation
import AnnotatedLisp.Proofs.Renaming.Form
import AnnotatedLisp.Eval.Context

/-!
Runs under a renaming of nodes.

Two runs on the same scopes of which one has other nodes than the other: the renaming says which node of the
second stands for a node of the first. Nodes that are made meanwhile are made in the same order in both, so
that their numbers only differ by an offset. The renaming need only say so for the nodes that a run makes.
Stamps are not compared, so either run may make some.

This module has the rules by which computations are put together, and what these do with the store.
-/

namespace AnnotatedLisp

open Eval

/-- How the nodes of one run are named in another. The nodes from `first` on are made in the runs, only
those before `last` if there is such a bound. -/
structure Renaming where
  rename : NodeId → NodeId
  injective : Function.Injective rename
  first : NodeId
  last : Option NodeId
  offset : Nat
  rename_made : ∀ node, first ≤ node → (∀ bound ∈ last, node < bound) → rename node = node + offset

namespace Scope

def relabel (f : NodeId → NodeId) (frame : Scope) : Scope :=
  ⟨frame.bindings.map (Prod.map id (Form.relabel f)), frame.outer⟩

/-- A scope stays as it is if the values in it do, and only then. -/
theorem relabel_eq_self_iff {f : NodeId → NodeId} {frame : Scope} :
    frame.relabel f = frame ↔ ∀ binding ∈ frame.bindings, binding.2.relabel f = binding.2 := by
  obtain ⟨bindings, outer⟩ := frame
  simp only [relabel, Scope.mk.injEq, and_true]
  induction bindings with
  | nil => simp
  | cons binding bindings ih =>
      rw [List.map_cons, List.cons_eq_cons, List.forall_mem_cons, ih]
      simp [Prod.ext_iff]

end Scope

/-- The store in which a computation stops, however it stops. -/
def Eval.left {α : Type} : EStateM.Result Stop Store α → Store
  | .ok _ s => s
  | .error _ s => s

/-- The second store has the nodes and scopes of the first, and maybe more. -/
structure Store.Precedes (s t : Store) : Prop where
  nodes : s.nextNode ≤ t.nextNode
  scopes : s.scopes.size ≤ t.scopes.size

/-- The computation takes no node and no scope back. -/
def Eval.Keeps {α : Type} (x : Eval α) : Prop :=
  ∀ s : Store, s.Precedes (left (x s))

/-- The computation does nothing but make stamps, if that. -/
def Eval.OnlyStamps (x : Eval Unit) : Prop :=
  ∀ s : Store, ∃ stamps, x s = .ok () { s with stamps := stamps }

namespace Renaming

variable (r : Renaming)

/-- The value in the second run. -/
abbrev value : Value → Value :=
  Form.relabel r.rename

/-- The stores have the same scopes but for the names of the nodes, and have written the same text. -/
structure Stores (s t : Store) : Prop where
  scopes : t.scopes = s.scopes.map (Scope.relabel r.rename)
  first_le : r.first ≤ s.nextNode
  nextNode : t.nextNode = s.nextNode + r.offset
  output : t.output = s.output

/-- The result in the second run of a computation that may raise an error. -/
abbrev result {α β : Type} (f : α → β) : Except Error α → Except Error β :=
  Error.relabelResult r.rename f

/-- Outcomes of which the second is that of the first but for the names of the nodes. -/
inductive Agrees {α β : Type} (f : α → β) :
    EStateM.Result Stop Store α → EStateM.Result Stop Store β → Prop
  | ok {a : α} {s t : Store} (related : r.Stores s t) : Agrees f (.ok a s) (.ok (f a) t)
  | error {error : Error} {s t : Store} (related : r.Stores s t) :
      Agrees f (.error (.error error) s) (.error (.error (error.relabel r.rename)) t)
  | exhausted {s t : Store} (related : r.Stores s t) :
      Agrees f (.error .exhausted s) (.error .exhausted t)

/-- The second computation does what the first does, if this makes no more nodes than were named. -/
structure Carries {α β : Type} (f : α → β) (x : Eval α) (y : Eval β) : Prop where
  keeps : Keeps x
  agrees : ∀ {s t : Store}, r.Stores s t → (∀ bound ∈ r.last, (left (x s)).nextNode ≤ bound) →
    r.Agrees f (x s) (y t)

end Renaming

namespace Store

variable {s t u : Store}

theorem Precedes.refl (s : Store) : s.Precedes s :=
  ⟨Nat.le_refl _, Nat.le_refl _⟩

theorem Precedes.trans (first : s.Precedes t) (rest : t.Precedes u) : s.Precedes u :=
  ⟨Nat.le_trans first.nodes rest.nodes, Nat.le_trans first.scopes rest.scopes⟩

end Store

namespace Eval

variable {α β : Type} {x : Eval α} {f : α → Eval β}

theorem keeps_pure (a : α) : Keeps (pure a : Eval α) :=
  fun s => .refl s

theorem keeps_throw (stop : Stop) : Keeps (throw stop : Eval α) :=
  fun s => .refl s

theorem left_bind_of_ok {a : α} {s t : Store} (h : x s = .ok a t) :
    left ((x >>= f) s) = left (f a t) := by
  rw [bind_of_ok h]

theorem left_bind_of_error {e : Stop} {s t : Store} (h : x s = .error e t) :
    left ((x >>= f) s) = t := by
  rw [bind_of_error h]
  rfl

theorem Keeps.bind (first : Keeps x) (rest : ∀ a, Keeps (f a)) : Keeps (x >>= f) := by
  intro s
  have kept := first s
  cases h : x s with
  | ok a t =>
      rw [h] at kept
      rw [left_bind_of_ok h]
      exact kept.trans (rest a t)
  | error e t =>
      rw [h] at kept
      rwa [left_bind_of_error h]

theorem left_attempt (x : Eval α) (s : Store) : left (x.attempt s) = left (x s) := by
  rw [attempt]
  cases x s with
  | ok a t => rfl
  | error e t => cases e <;> rfl

theorem onlyStamps_pure : OnlyStamps (pure ()) :=
  fun s => ⟨s.stamps, rfl⟩

theorem OnlyStamps.bind {x : Eval Unit} {f : Unit → Eval Unit} (first : OnlyStamps x)
    (rest : OnlyStamps (f ())) : OnlyStamps (x >>= f) := by
  intro s
  obtain ⟨stamps, made⟩ := first s
  obtain ⟨stamps', made'⟩ := rest { s with stamps := stamps }
  exact ⟨stamps', (bind_of_ok made).trans made'⟩

theorem onlyStamps_stamp (ctx : Context) (node : NodeId) (change : Stamps → Stamps) :
    OnlyStamps (ctx.stamp node change) := by
  rw [Context.stamp]
  cases ctx.annotate with
  | false => exact onlyStamps_pure
  | true => exact fun s => ⟨_, rfl⟩

theorem onlyStamps_stampForm (ctx : Context) (form : Value) (change : Stamps → Stamps) :
    OnlyStamps (ctx.stampForm form change) := by
  rw [Context.stampForm]
  cases form.nodeLabel? with
  | some node => exact onlyStamps_stamp ctx node change
  | none => exact onlyStamps_pure

end Eval

namespace Renaming

variable {r : Renaming} {α β γ δ : Type} {f : α → β} {g : γ → δ}

section Rules

theorem carries_pure {a : α} {b : β} (same : b = f a) : r.Carries f (pure a) (pure b) := by
  subst same
  exact ⟨keeps_pure a, fun related _ => .ok related⟩

theorem carries_raise (error : Error) :
    r.Carries f (raise error) (raise (error.relabel r.rename)) :=
  ⟨keeps_throw _, fun related _ => .error related⟩

theorem carries_exhausted : r.Carries f exhausted exhausted :=
  ⟨keeps_throw _, fun related _ => .exhausted related⟩

theorem carries_ofExcept {a : Except Error α} {b : Except Error β} (same : b = r.result f a) :
    r.Carries f (ofExcept a) (ofExcept b) := by
  subst same
  cases a with
  | ok a => exact carries_pure rfl
  | error error => exact carries_raise error

theorem Agrees.of_ok {a : α} {b : β} {s t : Store} (agrees : r.Agrees f (.ok a s) (.ok b t)) :
    b = f a ∧ r.Stores s t := by
  cases agrees with
  | ok related => exact ⟨rfl, related⟩

/-- A run stays within the named nodes only if each part of it does. -/
theorem Carries.bind {x : Eval α} {y : Eval β} {k : α → Eval γ} {l : β → Eval δ}
    (first : r.Carries f x y) (rest : ∀ a, r.Carries g (k a) (l (f a))) :
    r.Carries g (x >>= k) (y >>= l) := by
  refine ⟨first.keeps.bind fun a => (rest a).keeps, fun {s t} related within => ?_⟩
  cases h : x s with
  | ok a u =>
      rw [left_bind_of_ok h] at within
      have inner : ∀ bound ∈ r.last, (left (x s)).nextNode ≤ bound := fun bound h' =>
        Nat.le_trans (h ▸ ((rest a).keeps u).nodes) (within bound h')
      have agrees := first.agrees related inner
      rw [h] at agrees
      generalize h' : y t = outcome at agrees
      cases agrees with
      | ok related' =>
          rw [bind_of_ok h, bind_of_ok h']
          exact (rest a).agrees related' within
  | error e u =>
      rw [left_bind_of_error h] at within
      have agrees := first.agrees related (by rw [h]; exact within)
      rw [h] at agrees
      generalize h' : y t = outcome at agrees
      rw [bind_of_error h]
      cases agrees with
      | error related' =>
          rw [bind_of_error h']
          exact .error related'
      | exhausted related' =>
          rw [bind_of_error h']
          exact .exhausted related'

theorem Carries.attempt {x : Eval α} {y : Eval β} (h : r.Carries f x y) :
    r.Carries (r.result f) x.attempt y.attempt := by
  refine ⟨fun s => left_attempt x s ▸ h.keeps s, fun {s t} related within => ?_⟩
  rw [left_attempt] at within
  have agrees := h.agrees related within
  rw [Eval.attempt, Eval.attempt]
  generalize x s = a at agrees
  generalize y t = b at agrees
  cases agrees with
  | ok related => exact .ok related
  | error related => exact .ok related
  | exhausted related => exact .exhausted related

theorem carries_mapM {ι κ : Type} {h : ι → κ} {k : ι → Eval α} {l : κ → Eval β}
    (each : ∀ i, r.Carries f (k i) (l (h i))) (items : List ι) :
    r.Carries (List.map f) (items.mapM k) ((items.map h).mapM l) := by
  induction items with
  | nil =>
      simp only [List.map_nil, List.mapM_nil]
      exact carries_pure rfl
  | cons item items ih =>
      simp only [List.map_cons, List.mapM_cons]
      exact (each item).bind fun _ => ih.bind fun _ => carries_pure rfl

end Rules

section Stamps

theorem carries_onlyStamps {x y : Eval Unit} (hx : OnlyStamps x) (hy : OnlyStamps y) :
    r.Carries id x y := by
  refine ⟨fun s => ?_, fun {s t} related _ => ?_⟩
  · obtain ⟨stamps, made⟩ := hx s
    rw [made]
    exact ⟨Nat.le_refl _, Nat.le_refl _⟩
  · obtain ⟨stamps, made⟩ := hx s
    obtain ⟨stamps', made'⟩ := hy t
    rw [made, made']
    exact .ok ⟨related.scopes, related.first_le, related.nextNode, related.output⟩

theorem carries_stamp (a b : Context) (node node' : NodeId) (change change' : Stamps → Stamps) :
    r.Carries id (a.stamp node change) (b.stamp node' change') :=
  carries_onlyStamps (onlyStamps_stamp a node change) (onlyStamps_stamp b node' change')

theorem carries_stampForm (a b : Context) (form form' : Value) (change change' : Stamps → Stamps) :
    r.Carries id (a.stampForm form change) (b.stampForm form' change') :=
  carries_onlyStamps (onlyStamps_stampForm a form change) (onlyStamps_stampForm b form' change')

end Stamps

section Store

theorem carries_newNode : r.Carries r.rename newNode newNode := by
  refine ⟨fun s => ⟨Nat.le_succ s.nextNode, Nat.le_refl _⟩, fun {s t} related within => ?_⟩
  have made : t.nextNode = r.rename s.nextNode :=
    related.nextNode.trans (r.rename_made s.nextNode related.first_le within).symm
  have counted : r.Stores { s with nextNode := s.nextNode + 1 } { t with nextNode := t.nextNode + 1 } :=
    ⟨related.scopes, Nat.le_succ_of_le related.first_le,
      (congrArg (· + 1) related.nextNode).trans (Nat.add_right_comm _ _ _), related.output⟩
  rw [made] at counted
  rw [newNode_apply, newNode_apply, made]
  exact .ok counted

theorem carries_newSeq (kind : SeqKind) (items : List Value) :
    r.Carries r.value (newSeq kind items) (newSeq kind (items.map r.value)) :=
  carries_newNode.bind fun node => carries_pure (Form.relabel_seq r.rename node kind items).symm

theorem carries_newMap (entries : List (MapKey × Value)) :
    r.Carries r.value (newMap entries) (newMap (entries.map (Prod.map id r.value))) :=
  carries_newNode.bind fun node => carries_pure (Form.relabel_map r.rename node entries).symm

theorem Stores.addScope {s t : Store} (related : r.Stores s t) (outer : Option ScopeId) :
    r.Stores (s.addScope outer).2 (t.addScope outer).2 where
  scopes := by
    change t.scopes.push ⟨[], outer⟩ = (s.scopes.push ⟨[], outer⟩).map (Scope.relabel r.rename)
    rw [related.scopes, Array.map_push]
    rfl
  first_le := related.first_le
  nextNode := related.nextNode
  output := related.output

theorem Stores.size {s t : Store} (related : r.Stores s t) : t.scopes.size = s.scopes.size := by
  rw [related.scopes, Array.size_map]

theorem carries_newScope (outer : ScopeId) : r.Carries id (newScope outer) (newScope outer) := by
  refine ⟨fun s => ⟨Nat.le_refl _, ?_⟩, fun {s t} related _ => ?_⟩
  · exact Nat.le_of_lt ((Array.size_push _).symm ▸ Nat.lt_succ_self s.scopes.size)
  rw [newScope_apply, newScope_apply, related.size]
  exact .ok (related.addScope (some outer))

theorem Stores.define {s t : Store} (related : r.Stores s t) (id : ScopeId) (name : String)
    (value : Value) : r.Stores (s.define id name value) (t.define id name (r.value value)) where
  scopes := by
    rw [Store.define, Store.define, related.scopes]
    apply Array.ext_getElem?
    intro i
    by_cases here : id = i
    · simp [Array.getElem?_modify, here, Scope.relabel, Entries.insert_map, Function.comp_def]
    · simp [Array.getElem?_modify, here]
  first_le := related.first_le
  nextNode := related.nextNode
  output := related.output

theorem carries_define (scope : ScopeId) (name : String) (value : Value) :
    r.Carries id (Eval.define scope name value) (Eval.define scope name (r.value value)) := by
  refine ⟨fun s => ⟨Nat.le_refl _, ?_⟩, fun {s t} related _ => ?_⟩
  · exact Nat.le_of_eq (Array.size_modify).symm
  rw [define_apply, define_apply]
  exact .ok (related.define scope name value)

theorem Stores.lookupWithin {s t : Store} (related : r.Stores s t) (name : String) (fuel : Nat)
    (id : ScopeId) :
    t.lookupWithin name fuel id = (s.lookupWithin name fuel id).map r.value := by
  induction fuel generalizing id with
  | zero => rfl
  | succ fuel ih =>
      rw [Store.lookupWithin, Store.lookupWithin, related.scopes, Array.getElem?_map]
      cases s.scopes[id]? with
      | none => rfl
      | some frame =>
          rw [Option.map_some]
          dsimp only [Scope.relabel]
          rw [Entries.find?_map]
          cases frame.bindings.find? name with
          | some value => rfl
          | none =>
              cases frame.outer with
              | some outer => exact ih outer
              | none => rfl

theorem Stores.lookup {s t : Store} (related : r.Stores s t) (name : String) (id : ScopeId) :
    t.lookup name id = (s.lookup name id).map r.value :=
  related.lookupWithin name (id + 1) id

theorem carries_lookup? (scope : ScopeId) (name : String) :
    r.Carries (Option.map r.value) (lookup? scope name) (lookup? scope name) := by
  refine ⟨fun s => .refl s, fun {s t} related _ => ?_⟩
  rw [lookup?_apply, lookup?_apply, related.lookup]
  exact .ok related

theorem carries_lookup (scope : ScopeId) (name : String) :
    r.Carries r.value (lookup scope name) (lookup scope name) := by
  refine (carries_lookup? scope name).bind fun found => ?_
  cases found with
  | some value => exact carries_pure rfl
  | none => exact carries_raise (.unboundSymbol name)

end Store

end Renaming

end AnnotatedLisp
