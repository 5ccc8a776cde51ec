import AnnotatedLisp.Proofs.Renaming.Run
import Mathlib.Logic.Equiv.Basic

/-!
Renamings of a run into itself.

A store is closed if all nodes in its scopes were made in it. Renaming other nodes then leaves it as it is,
so that a run is carried into itself: with no node renamed, a run without stamps into one with stamps; with
nodes exchanged that were not made, into the very same run. What comes out of it is unchanged by the
exchange, hence has none of these nodes. So evaluation keeps stores closed, and its values have no nodes but
those that were made.
-/

namespace AnnotatedLisp

open Eval

/-- All nodes in the form were made before the node `bound`. -/
def Form.Before (bound : NodeId) (form : Value) : Prop :=
  form.AllLabels (· < bound)

/-- All nodes in the values that scopes hold were made in the store. -/
def Store.Closed (s : Store) : Prop :=
  ∀ (id : ScopeId) (frame : Scope), s.scopes[id]? = some frame →
    ∀ binding ∈ frame.bindings, binding.2.Before s.nextNode

section Fixed

variable {f : NodeId → NodeId} {bound : NodeId}

theorem Form.Before.relabel_eq {form : Value} (before : form.Before bound)
    (fixed : ∀ node < bound, f node = node) : form.relabel f = form :=
  (Form.relabel_eq_self_iff f form).2 (AllLabels.mono fixed before)

theorem Form.map_relabel_eq {forms : List Value} (before : ∀ form ∈ forms, form.Before bound)
    (fixed : ∀ node < bound, f node = node) : forms.map (Form.relabel f) = forms :=
  (List.map_congr_left fun form mem => (before form mem).relabel_eq fixed).trans (List.map_id' forms)

theorem map_relabel_eq_self_iff {scopes : Array Scope} :
    scopes.map (Scope.relabel f) = scopes ↔
      ∀ (id : ScopeId) (frame : Scope), scopes[id]? = some frame →
        ∀ binding ∈ frame.bindings, binding.2.relabel f = binding.2 := by
  constructor
  · intro same id frame here
    have renamed : (scopes.map (Scope.relabel f))[id]? = some frame := by rw [same, here]
    rw [Array.getElem?_map, here] at renamed
    exact Scope.relabel_eq_self_iff.1 (Option.some.inj renamed)
  · intro fixed
    refine Array.ext_getElem? fun id => ?_
    rw [Array.getElem?_map]
    cases here : scopes[id]? with
    | none => rfl
    | some frame => exact congrArg some (Scope.relabel_eq_self_iff.2 (fixed id frame here))

end Fixed

namespace Renaming

variable {r : Renaming} {s t : Store}

/-- A renaming that leaves the nodes of a closed store as they are leaves the store as it is. -/
theorem stores_of_closed (closed : s.Closed) (fixed : ∀ node < s.nextNode, r.rename node = node)
    (first : r.first ≤ s.nextNode) (scopes : t.scopes = s.scopes)
    (nextNode : t.nextNode = s.nextNode + r.offset) (output : t.output = s.output) :
    r.Stores s t where
  scopes := by
    rw [scopes]
    exact (map_relabel_eq_self_iff.2 fun id frame here binding mem =>
      (closed id frame here binding mem).relabel_eq fixed).symm
  first_le := first
  nextNode := nextNode
  output := output

/-- No node has another name. -/
def identity : Renaming where
  rename := id
  injective := Function.injective_id
  first := 0
  last := none
  offset := 0
  rename_made _ _ _ := rfl

/-- Two nodes are exchanged that are not made before `last`. -/
def exchange (first last node : NodeId) (above : last ≤ node) : Renaming where
  rename := Equiv.swap node (node + 1)
  injective := (Equiv.swap node (node + 1)).injective
  first := first
  last := some last
  offset := 0
  rename_made m _ below := by
    have earlier : m < node := Nat.lt_of_lt_of_le (below last rfl) above
    exact Equiv.swap_apply_of_ne_of_ne (Nat.ne_of_lt earlier) (Nat.ne_of_lt (Nat.lt_succ_of_lt earlier))

end Renaming

section Runs

variable {host : Host} (equivariant : host.Equivariant) {form : Value} {scope : ScopeId} {s t : Store}
  {result : Except Error Value}

include equivariant

/-- Whether stamps are made makes no difference to anything but stamps. -/
theorem exists_evaluates_of_alike {a b : Context} (alike : a.Alike b)
    (ends : Evaluates host a form scope s result t) :
    ∃ u, Evaluates host b form scope s result u ∧ u.scopes = t.scopes ∧ u.output = t.output := by
  have fixed (node : NodeId) : Renaming.identity.rename node = node := rfl
  have unchanged (scopes : Array Scope) : scopes.map (Scope.relabel Renaming.identity.rename) = scopes :=
    map_relabel_eq_self_iff.2 fun _ _ _ _ _ => Form.relabel_of_forall fixed _
  obtain ⟨u, ends, same⟩ := Renaming.exists_evaluates equivariant alike rfl
    ⟨(unchanged s.scopes).symm, Nat.zero_le _, rfl, rfl⟩ ends
  rw [Renaming.value, Form.relabel_of_forall fixed, Renaming.result,
    Error.relabelResult_of_forall fixed] at ends
  exact ⟨u, ends, same.scopes.trans (unchanged t.scopes), same.output⟩

/-- Evaluation takes no node and no scope back. -/
theorem precedes_of_evaluates {ctx : Context} (ends : Evaluates host ctx form scope s result t) :
    s.Precedes t := by
  obtain ⟨fuel, ends⟩ := ends
  have keeps :=
    (Renaming.carries_evaluate (r := .identity) equivariant fuel (.refl ctx) form scope).attempt.keeps s
  rwa [ends] at keeps

theorem unchanged_by_exchange {ctx : Context} {fuel : Nat} (closed : s.Closed)
    (before : form.Before s.nextNode)
    (ends : (evaluate host fuel ctx form scope).attempt s = .ok result t) {node : NodeId}
    (above : t.nextNode ≤ node) :
    result = Error.relabelResult (Equiv.swap node (node + 1))
        (Form.relabel (Equiv.swap node (node + 1))) result ∧
      t.scopes = t.scopes.map (Scope.relabel (Equiv.swap node (node + 1))) := by
  let r : Renaming := .exchange s.nextNode t.nextNode node above
  have carried := (Renaming.carries_evaluate (r := r) equivariant fuel (.refl ctx) form scope).attempt
  have kept : s.Precedes t := precedes_of_evaluates equivariant ⟨fuel, ends⟩
  have fixed (m : NodeId) (made : m < s.nextNode) : r.rename m = m := by
    have earlier : m < node := Nat.lt_of_lt_of_le made (Nat.le_trans kept.nodes above)
    exact Equiv.swap_apply_of_ne_of_ne (Nat.ne_of_lt earlier) (Nat.ne_of_lt (Nat.lt_succ_of_lt earlier))
  have related : r.Stores s s :=
    Renaming.stores_of_closed closed fixed (Nat.le_refl _) rfl rfl rfl
  have agrees := carried.agrees related (by
    intro bound last
    cases last
    rw [ends]
    exact Nat.le_refl _)
  rw [Renaming.value, before.relabel_eq fixed, ends] at agrees
  exact ⟨agrees.of_ok.1, agrees.of_ok.2.scopes⟩

/-- Evaluation makes up no nodes. -/
theorem closed_of_evaluates {ctx : Context} (closed : s.Closed) (before : form.Before s.nextNode)
    (ends : Evaluates host ctx form scope s result t) :
    t.Closed ∧ Error.ResultLabels (· < t.nextNode) result := by
  obtain ⟨fuel, ends⟩ := ends
  have unchanged (k : Nat) :=
    unchanged_by_exchange equivariant closed before ends (Nat.le_add_right t.nextNode k)
  -- A node that is not made is exchanged with its neighbour in one of the exchanges.
  have made (m : NodeId)
      (fixed : ∀ k : Nat, Equiv.swap (t.nextNode + k) (t.nextNode + k + 1) m = m) :
      m < t.nextNode := by
    by_contra later
    obtain ⟨k, rfl⟩ := Nat.exists_eq_add_of_le (Nat.not_lt.1 later)
    have moved := fixed k
    exact Nat.succ_ne_self _ ((Equiv.swap_apply_left _ _).symm.trans moved)
  constructor
  · intro id frame here binding mem
    refine Form.AllLabels.combine made _ fun k => ?_
    have fixed := map_relabel_eq_self_iff.1 (unchanged k).2.symm id frame here
    exact (Form.relabel_eq_self_iff _ _).1 (fixed binding mem)
  · exact Error.ResultLabels.combine made fun k => Error.relabelResult_eq_self_iff.1 (unchanged k).1.symm

end Runs

end AnnotatedLisp
