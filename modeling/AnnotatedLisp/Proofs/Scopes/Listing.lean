import AnnotatedLisp.Proofs.Scopes.Chain
import AnnotatedLisp.Proofs.World.Reached

/-!
The listing of a scope and lookups in it agree.

The listing is made from the outermost scope inwards, each scope putting its bindings over those around it; a
lookup goes from the innermost scope outwards and stops at the first binding. Under every name both come to
the same.
-/

namespace AnnotatedLisp

namespace Store

variable {s : Store} {name : String} {id : ScopeId} {value : Value}

section Nested

variable (nested : s.WellFounded)

include nested

theorem visibleWithin_eq {fuel fuel' : Nat} (enough : id < fuel) (enough' : id < fuel') :
    s.visibleWithin fuel id = s.visibleWithin fuel' id := by
  induction fuel generalizing fuel' id with
  | zero => exact absurd enough (Nat.not_lt_zero id)
  | succ fuel ih =>
      obtain ⟨fuel', rfl⟩ := Nat.exists_eq_add_one_of_ne_zero (Nat.ne_of_gt (Nat.zero_lt_of_lt enough'))
      rw [visibleWithin, visibleWithin]
      cases here : s.scopes[id]? with
      | none => rfl
      | some frame =>
          dsimp only
          cases around : frame.outer with
          | none => rfl
          | some outer =>
              have earlier : outer < id := nested id frame here outer around
              dsimp only
              rw [ih (Nat.lt_of_lt_of_le earlier (Nat.le_of_lt_succ enough))
                (Nat.lt_of_lt_of_le earlier (Nat.le_of_lt_succ enough'))]

/-- The bindings of a scope are put over the listing of the scope around it. -/
theorem visible_eq {frame : Scope} (here : s.scopes[id]? = some frame) :
    s.visible id =
      match frame.outer with
      | some outer => Entries.overlay (s.visible outer) frame.bindings
      | none => frame.bindings := by
  rw [visible, visibleWithin, here]
  dsimp only
  cases around : frame.outer with
  | none => rfl
  | some outer =>
      dsimp only
      rw [visibleWithin_eq nested (nested id frame here outer around) (Nat.lt_succ_self outer), visible]

variable (ordered : s.Ordered)

include ordered

theorem sorted_visible (id : ScopeId) : Entries.Sorted (s.visible id) := by
  induction id using Nat.strongRecOn with
  | ind id ih =>
      cases here : s.scopes[id]? with
      | none =>
          rw [visible, visibleWithin, here]
          exact Entries.sorted_nil
      | some frame =>
          rw [visible_eq nested here]
          cases around : frame.outer with
          | none => exact ordered id frame here
          | some outer => exact Entries.sorted_overlay (ih outer (nested id frame here outer around))

theorem find?_visible (name : String) (id : ScopeId) :
    (s.visible id).find? name = s.lookup name id := by
  -- Outwards the chain is shorter for both, although the listing is put together from its other end.
  induction id using Nat.strongRecOn with
  | ind id ih =>
      rw [lookup_eq nested, own?, outer?]
      cases here : s.scopes[id]? with
      | none =>
          rw [visible, visibleWithin, here]
          rfl
      | some frame =>
          rw [visible_eq nested here, Option.bind_some, Option.bind_some]
          cases around : frame.outer with
          | none => exact (Option.or_none).symm
          | some outer =>
              dsimp only
              rw [Entries.find?_overlay_of_sorted (ordered id frame here),
                ih outer (nested id frame here outer around), Option.bind_some]

theorem mem_visible_iff : (name, value) ∈ s.visible id ↔ s.lookup name id = some value := by
  rw [← Entries.find?_eq_some_iff (sorted_visible nested ordered id), find?_visible nested ordered]

end Nested

/-- The listing of a scope is in order, each name once, and has under each name the value that a lookup finds,
which is the one that the nearest scope binds the name to. -/
theorem visible_agrees_with_lookup {held : List Value} (reached : s.Reached held) (id : ScopeId) :
    Entries.Sorted (s.visible id) ∧ ∀ name,
      (∀ value, (name, value) ∈ s.visible id ↔ s.lookup name id = some value) ∧
      ((s.lookup name id).isSome ↔ name ∈ Entries.keys (s.visible id)) ∧
      ∀ value, (name, value) ∈ s.visible id ↔
        ∃ scope, s.Unshadowed name id scope ∧ s.own? scope name = some value := by
  obtain ⟨w, describes, _⟩ := World.exists_describes reached
  have listed {name : String} {value : Value} :
      (name, value) ∈ s.visible id ↔ s.lookup name id = some value :=
    mem_visible_iff describes.nested describes.ordered
  refine ⟨sorted_visible describes.nested describes.ordered id, fun name => ⟨fun _ => listed, ?_, ?_⟩⟩
  · rw [Option.isSome_iff_exists, Entries.keys, List.mem_map]
    constructor
    · rintro ⟨value, found⟩
      exact ⟨(name, value), listed.2 found, rfl⟩
    · rintro ⟨⟨_, value⟩, mem, rfl⟩
      exact ⟨value, listed.1 mem⟩
  · intro value
    rw [listed, lookup_eq_some_iff describes.nested]

/-- Three scopes in one another, of which the middle one hides a name of the outermost. -/
def shadowing : Store :=
  ((((empty.addScope none).2.addScope (some 0)).2.addScope (some 1)).2.define 0 "x" (.bool true)).define 1
    "x" (.bool false)

theorem reached_shadowing : shadowing.Reached [.bool true, .bool false] := by
  have held : empty.Reached [.bool true, .bool false] := (Reached.start.atom rfl rfl rfl).atom rfl rfl rfl
  have outermost := held.addScope none nofun
  have scopes := (outermost.addScope (some 0) (by decide)).addScope (some 1) (by decide)
  exact (scopes.define (by decide) "x" (by simp)).define (by decide) "x" (by simp)

/-- The innermost scope lists the binding of the middle one. -/
theorem visible_of_shadowing :
    shadowing.Reached [.bool true, .bool false] ∧ Entries.Sorted (shadowing.visible 2) ∧
      ("x", .bool false) ∈ shadowing.visible 2 ∧ ("x", .bool true) ∉ shadowing.visible 2 := by
  obtain ⟨sorted, listed⟩ := visible_agrees_with_lookup reached_shadowing 2
  have hidden : shadowing.lookup "x" 2 ≠ some (.bool true) := by
    rintro ⟨⟩
  exact ⟨reached_shadowing, sorted, ((listed "x").1 _).2 rfl, fun mem => hidden (((listed "x").1 _).1 mem)⟩

end Store

end AnnotatedLisp
