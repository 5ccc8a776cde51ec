import AnnotatedLisp.Native.Core
import AnnotatedLisp.Proofs.Computation
import Mathlib.Data.List.Nodup

/-!
The core operations by name.

No two of them share a name, so each is found by its own. A new global scope binds every one of them to its name,
binds nothing else, and is nested in no other scope.
-/

namespace AnnotatedLisp

namespace Entries

variable {κ ν : Type} [DecidableEq κ] [Ord κ] [Std.LawfulEqOrd κ] {key : κ} {value : ν}

theorem find?_overlay_of_not_mem {inner : Entries κ ν} (other : key ∉ inner.keys) (outer : Entries κ ν) :
    find? key (overlay outer inner) = find? key outer := by
  induction inner generalizing outer with
  | nil => rfl
  | cons entry rest ih =>
      obtain ⟨first, others⟩ := List.ne_and_not_mem_of_not_mem_cons other
      have step : overlay outer (entry :: rest) = overlay (insert entry.1 entry.2 outer) rest := rfl
      rw [step, ih others, find?_insert, if_neg first]

/-- What is put in once stays, in whatever order it was. -/
theorem find?_overlay_of_nodup {inner : Entries κ ν} (nodup : inner.keys.Nodup)
    (mem : (key, value) ∈ inner) (outer : Entries κ ν) :
    find? key (overlay outer inner) = some value := by
  induction inner generalizing outer with
  | nil => cases mem
  | cons entry rest ih =>
      obtain ⟨other, nodup⟩ := List.nodup_cons.1 nodup
      have step : overlay outer (entry :: rest) = overlay (insert entry.1 entry.2 outer) rest := rfl
      rw [step]
      obtain rfl | mem := List.mem_cons.1 mem
      · rw [find?_overlay_of_not_mem other, find?_insert, if_pos rfl]
      · exact ih nodup mem _

end Entries

namespace CoreOp

theorem nodup_names : (all.map name).Nodup := by
  decide

theorem name_injective {a b : CoreOp} (same : a.name = b.name) : a = b :=
  List.inj_on_of_nodup_map nodup_names (mem_all a) (mem_all b) same

theorem name_of_ofName? {id : String} {op : CoreOp} (found : ofName? id = some op) : op.name = id := by
  rw [ofName?] at found
  simpa using List.find?_some found

theorem ofName?_name (op : CoreOp) : ofName? op.name = some op := by
  cases found : ofName? op.name with
  | none =>
      rw [ofName?, List.find?_eq_none] at found
      exact absurd BEq.rfl (found op (mem_all op))
  | some own => rw [name_injective (name_of_ofName? found)]

/-- The operations under their names. -/
def bindings (ops : List CoreOp) : Entries String Value :=
  ops.map fun op => (op.name, .native (.core op))

theorem keys_bindings (ops : List CoreOp) : (bindings ops).keys = ops.map name := by
  rw [bindings, Entries.keys, List.map_map]
  rfl

theorem mem_bindings_iff {ops : List CoreOp} {id : String} {value : Value} :
    (id, value) ∈ bindings ops ↔ ∃ op ∈ ops, op.name = id ∧ value = .native (.core op) := by
  simp [bindings, eq_comm]

end CoreOp

/-- The scope that binds the core operations and nothing else. -/
def Scope.global : Scope :=
  ⟨Entries.overlay [] (CoreOp.bindings CoreOp.all), none⟩

theorem Scope.find?_global_iff {id : String} {value : Value} :
    global.bindings.find? id = some value ↔ ∃ op : CoreOp, op.name = id ∧ value = .native (.core op) := by
  rw [global]
  constructor
  · intro found
    have put := (Entries.mem_overlay (Entries.mem_of_find? found)).resolve_left List.not_mem_nil
    obtain ⟨op, _, own⟩ := CoreOp.mem_bindings_iff.1 put
    exact ⟨op, own⟩
  · rintro ⟨op, rfl, rfl⟩
    have nodup : (CoreOp.bindings CoreOp.all).keys.Nodup := by
      rw [CoreOp.keys_bindings]
      exact CoreOp.nodup_names
    exact Entries.find?_overlay_of_nodup nodup
      (CoreOp.mem_bindings_iff.2 ⟨op, CoreOp.mem_all op, rfl, rfl⟩) []

namespace Store

variable {s : Store} {id : ScopeId}

theorem lookup_of_outermost {bindings : Entries String Value} (here : s.scopes[id]? = some ⟨bindings, none⟩)
    (name : String) : s.lookup name id = bindings.find? name := by
  rw [lookup, lookupWithin, here]
  dsimp only
  cases bindings.find? name <;> rfl

/-- In a global scope a name has a value exactly if it is that of a core operation. -/
theorem lookup_global_iff (global : s.scopes[id]? = some .global) {name : String} {value : Value} :
    s.lookup name id = some value ↔ ∃ op : CoreOp, op.name = name ∧ value = .native (.core op) := by
  have outermost : s.scopes[id]? = some ⟨Scope.global.bindings, none⟩ := global
  rw [← Scope.find?_global_iff, lookup_of_outermost outermost]

theorem scopes_define {scope : Scope} (here : s.scopes[id]? = some scope) (name : String) (value : Value) :
    (s.define id name value).scopes[id]? =
      some { scope with bindings := scope.bindings.insert name value } := by
  rw [define, Array.getElem?_modify, if_pos rfl, here]
  rfl

end Store

namespace Eval

theorem exists_defined (ops : List CoreOp) {id : ScopeId} {scope : Scope} {s : Store}
    (here : s.scopes[id]? = some scope) :
    ∃ t, (ops.forM fun op => Eval.define id op.name (.native (.core op))) s = .ok () t ∧
      t.scopes[id]? = some { scope with bindings := scope.bindings.overlay (CoreOp.bindings ops) } := by
  induction ops generalizing s scope with
  | nil => exact ⟨s, rfl, here⟩
  | cons op ops ih =>
      obtain ⟨t, defined, there⟩ := ih (Store.scopes_define here op.name (.native (.core op)))
      exact ⟨t, (bind_of_ok (define_apply id op.name _ s)).trans defined, there⟩

theorem newGlobalScope_apply (s : Store) :
    ∃ scope t, newGlobalScope s = .ok scope t ∧ t.scopes[scope]? = some .global := by
  have new : (s.addScope none).2.scopes[s.scopes.size]? = some ⟨[], none⟩ := Array.getElem?_push_size
  obtain ⟨t, defined, here⟩ := exists_defined CoreOp.all new
  refine ⟨s.scopes.size, t, ?_, here⟩
  have added : (modifyGet fun s : Store => s.addScope none : Eval ScopeId) s =
      .ok s.scopes.size (s.addScope none).2 := rfl
  exact (bind_of_ok added).trans (bind_of_ok defined)

end Eval

end AnnotatedLisp
