import AnnotatedLisp.Proofs.Confinement

/-!
Chains of scopes.

From every scope a chain of scopes leads outwards, and a name has the value that it is bound to in the first
scope of the chain that binds it. The chain is described without a bound on its length; that each scope is
nested in an earlier one is what lets a lookup with a bound reach its end.
-/

namespace AnnotatedLisp

namespace Store

/-- The value that a name is bound to in the scope itself. -/
def own? (s : Store) (id : ScopeId) (name : String) : Option Value :=
  s.scopes[id]?.bind fun frame => frame.bindings.find? name

/-- The scope around a scope. -/
def outer? (s : Store) (id : ScopeId) : Option ScopeId :=
  s.scopes[id]?.bind Scope.outer

/-- The scope that lies so many steps outwards. -/
def around? (s : Store) : Nat → ScopeId → Option ScopeId
  | 0, id => some id
  | steps + 1, id => (s.outer? id).bind (s.around? steps)

/-- The scope is on the chain from `id` outwards, and none that lies nearer binds the name. -/
def Unshadowed (s : Store) (name : String) (id scope : ScopeId) : Prop :=
  ∃ distance, s.around? distance id = some scope ∧
    ∀ steps < distance, ∀ nearer ∈ s.around? steps id, s.own? nearer name = none

variable {s t : Store} {name : String} {id scope : ScopeId} {value : Value}

theorem unshadowed_self (s : Store) (name : String) (id : ScopeId) : s.Unshadowed name id id :=
  ⟨0, rfl, nofun⟩

/-- The scope is the first of the chain, or the first does not bind the name and it is unshadowed from the
next one. -/
theorem unshadowed_iff : s.Unshadowed name id scope ↔
    id = scope ∨ s.own? id name = none ∧ ∃ outer ∈ s.outer? id, s.Unshadowed name outer scope := by
  constructor
  · rintro ⟨distance, reaches, free⟩
    cases distance with
    | zero => exact .inl (Option.some.inj reaches)
    | succ distance =>
        obtain ⟨outer, here, reaches⟩ := Option.bind_eq_some_iff.1 reaches
        refine .inr ⟨free 0 (Nat.succ_pos distance) id rfl, outer, here, distance, reaches, ?_⟩
        intro steps less nearer mem
        have mem : nearer ∈ s.around? (steps + 1) id := Option.bind_eq_some_iff.2 ⟨outer, here, mem⟩
        exact free (steps + 1) (Nat.succ_lt_succ less) nearer mem
  · rintro (rfl | ⟨unbound, outer, here, distance, reaches, free⟩)
    · exact unshadowed_self s name id
    · refine ⟨distance + 1, Option.bind_eq_some_iff.2 ⟨outer, here, reaches⟩, ?_⟩
      intro steps less nearer mem
      cases steps with
      | zero =>
          cases mem
          exact unbound
      | succ steps =>
          obtain ⟨outer', here', mem⟩ := Option.bind_eq_some_iff.1 mem
          obtain rfl : outer = outer' := Option.some.inj (here.symm.trans here')
          exact free steps (Nat.lt_of_succ_lt_succ less) nearer mem

section Nested

variable (nested : s.WellFounded)

include nested

theorem outer?_lt {outer : ScopeId} (here : outer ∈ s.outer? id) : outer < id := by
  obtain ⟨frame, found, around⟩ := Option.bind_eq_some_iff.1 here
  exact nested id frame found outer around

/-- Scopes are nested in earlier ones, so that a lookup sees no later scope than the one it begins in, and as
many of them as there are up to that one at most. -/
theorem lookupWithin_eq {fuel fuel' : Nat} (same : ∀ k ≤ id, t.scopes[k]? = s.scopes[k]?)
    (enough : id < fuel) (enough' : id < fuel') :
    t.lookupWithin name fuel id = s.lookupWithin name fuel' id := by
  induction fuel generalizing fuel' id with
  | zero => exact absurd enough (Nat.not_lt_zero id)
  | succ fuel ih =>
      obtain ⟨fuel', rfl⟩ := Nat.exists_eq_add_one_of_ne_zero (Nat.ne_of_gt (Nat.zero_lt_of_lt enough'))
      rw [lookupWithin, lookupWithin, same id (Nat.le_refl id)]
      cases here : s.scopes[id]? with
      | none => rfl
      | some frame =>
          dsimp only
          cases frame.bindings.find? name with
          | some value => rfl
          | none =>
              cases around : frame.outer with
              | none => rfl
              | some outer =>
                  have earlier : outer < id := nested id frame here outer around
                  exact ih (fun k le => same k (Nat.le_trans le (Nat.le_of_lt earlier)))
                    (Nat.lt_of_lt_of_le earlier (Nat.le_of_lt_succ enough))
                    (Nat.lt_of_lt_of_le earlier (Nat.le_of_lt_succ enough'))

/-- In a scope that binds nothing yet, names have the values that they have around it. -/
theorem lookup_newScope (present : scope < s.scopes.size) :
    (s.addScope (some scope)).2.lookup name s.scopes.size = s.lookup name scope := by
  have here : (s.addScope (some scope)).2.scopes[s.scopes.size]? = some ⟨[], some scope⟩ :=
    Array.getElem?_push_size
  rw [lookup, lookupWithin, here]
  dsimp only [Entries.find?, List.lookup_nil]
  exact lookupWithin_eq nested (fun k le => getElem?_addScope (Nat.lt_of_le_of_lt le present) _) present
    (Nat.lt_succ_self scope)

/-- A lookup goes on in the scope around the one in which it begins. -/
theorem lookup_eq (name : String) (id : ScopeId) :
    s.lookup name id = (s.own? id name).or ((s.outer? id).bind (s.lookup name)) := by
  rw [lookup, lookupWithin, own?, outer?]
  cases here : s.scopes[id]? with
  | none => rfl
  | some frame =>
      rw [Option.bind_some, Option.bind_some]
      dsimp only
      cases frame.bindings.find? name with
      | some value => rfl
      | none =>
          cases around : frame.outer with
          | none => rfl
          | some outer =>
              exact lookupWithin_eq nested (fun _ _ => rfl) (nested id frame here outer around)
                (Nat.lt_succ_self outer)

/-- A name has the value that it is bound to in the nearest scope of the chain that binds it. -/
theorem lookup_eq_some_iff : s.lookup name id = some value ↔
    ∃ scope, s.Unshadowed name id scope ∧ s.own? scope name = some value := by
  -- The induction is on the scope: the one around it is earlier.
  induction id using Nat.strongRecOn with
  | ind id ih =>
      rw [lookup_eq nested, Option.or_eq_some_iff, Option.bind_eq_some_iff]
      constructor
      · rintro (own | ⟨free, outer, here, found⟩)
        · exact ⟨id, unshadowed_self s name id, own⟩
        · obtain ⟨scope, unshadowed, own⟩ := (ih outer (outer?_lt nested here)).1 found
          exact ⟨scope, unshadowed_iff.2 (.inr ⟨free, outer, here, unshadowed⟩), own⟩
      · rintro ⟨scope, unshadowed, own⟩
        obtain rfl | ⟨free, outer, here, unshadowed⟩ := unshadowed_iff.1 unshadowed
        · exact .inl own
        · exact .inr ⟨free, outer, here, (ih outer (outer?_lt nested here)).2 ⟨scope, unshadowed, own⟩⟩

end Nested

end Store

end AnnotatedLisp
