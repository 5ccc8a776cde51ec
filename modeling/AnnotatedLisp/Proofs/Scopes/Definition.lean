import AnnotatedLisp.Proofs.Scopes.Listing

/-!
Where a definition is seen.

A definition changes the bindings of one scope, which any number of chains lead to. Along each of them it is
seen from the scopes inwards of it, up to the first that binds the name itself.
-/

namespace AnnotatedLisp

namespace Store

variable {s : Store} {name other : String} {id scope : ScopeId} {value : Value}

theorem outer?_define (scope : ScopeId) (name : String) (value : Value) (id : ScopeId) :
    (s.define scope name value).outer? id = s.outer? id := by
  rw [outer?, outer?, getElem?_define]
  split
  · rw [Option.bind_map]
    rfl
  · rfl

/-- No other scope changes, and in the scope itself no other name. -/
theorem own?_define_of_ne (apart : id ≠ scope ∨ other ≠ name) :
    (s.define scope name value).own? id other = s.own? id other := by
  rw [own?, own?, getElem?_define]
  split
  next here =>
    obtain differs | differs := apart
    · exact absurd here.symm differs
    · rw [Option.bind_map]
      refine congrArg (s.scopes[id]?.bind ·) (funext fun frame => ?_)
      exact (Entries.find?_insert name other value frame.bindings).trans (if_neg differs)
  next => rfl

theorem own?_define_self (present : scope < s.scopes.size) :
    (s.define scope name value).own? scope name = some value := by
  rw [own?, getElem?_define, if_pos rfl, Array.getElem?_eq_getElem present, Option.map_some,
    Option.bind_some]
  exact (Entries.find?_insert name name value _).trans (if_pos rfl)

theorem wellFounded_define (nested : s.WellFounded) (scope : ScopeId) (name : String) (value : Value) :
    (s.define scope name value).WellFounded := by
  intro id frame here outer around
  have around : outer ∈ (s.define scope name value).outer? id :=
    Option.bind_eq_some_iff.2 ⟨frame, here, around⟩
  rw [outer?_define] at around
  exact outer?_lt nested around

section Nested

variable (nested : s.WellFounded)

include nested

/-- A lookup of another name, or from where the definition cannot be seen, finds what it found before. -/
theorem lookup_define_of_hidden (hidden : ¬(other = name ∧ s.Unshadowed name id scope)) :
    (s.define scope name value).lookup other id = s.lookup other id := by
  induction id using Nat.strongRecOn with
  | ind id ih =>
      rw [lookup_eq (wellFounded_define nested scope name value), lookup_eq nested, outer?_define]
      have apart : id ≠ scope ∨ other ≠ name := by
        rw [not_and_or] at hidden
        refine hidden.symm.imp_left fun shadowed here => shadowed ?_
        exact here ▸ unshadowed_self s name id
      rw [own?_define_of_ne apart]
      cases own : s.own? id other with
      | some bound => rfl
      | none =>
          -- Nothing is bound here, so that what can be seen from further out can be seen from here.
          cases here : s.outer? id with
          | none => rfl
          | some outer =>
              refine ih outer (outer?_lt nested here) fun ⟨same, unshadowed⟩ => hidden ⟨same, ?_⟩
              exact unshadowed_iff.2 (.inr ⟨same ▸ own, outer, here, unshadowed⟩)

theorem lookup_define_of_unshadowed (present : scope < s.scopes.size)
    (unshadowed : s.Unshadowed name id scope) :
    (s.define scope name value).lookup name id = some value := by
  induction id using Nat.strongRecOn with
  | ind id ih =>
      rw [lookup_eq (wellFounded_define nested scope name value), outer?_define]
      by_cases same : id = scope
      · rw [same, own?_define_self present, Option.some_or]
      · obtain here | ⟨free, outer, here, unshadowed⟩ := unshadowed_iff.1 unshadowed
        · exact absurd here same
        · rw [own?_define_of_ne (.inl same), free, Option.none_or, here]
          exact ih outer (outer?_lt nested here) unshadowed

end Nested

/-- After a definition in a scope, its name has the value from every scope that leads to it with no nearer
one binding the name. All other lookups find what they found before, and no other binding and no nesting
changes. -/
theorem lookup_define {held : List Value} (reached : s.Reached held) (present : scope < s.scopes.size)
    (name other : String) (value : Value) (id : ScopeId) :
    (other = name ∧ s.Unshadowed name id scope →
      (s.define scope name value).lookup other id = some value) ∧
    (¬(other = name ∧ s.Unshadowed name id scope) →
      (s.define scope name value).lookup other id = s.lookup other id) ∧
    (s.define scope name value).scopes.size = s.scopes.size ∧
    (∀ frame, (s.define scope name value).outer? frame = s.outer? frame) ∧
    (∀ frame, frame ≠ scope → (s.define scope name value).scopes[frame]? = s.scopes[frame]?) ∧
    ∀ bound, bound ≠ name → (s.define scope name value).own? scope bound = s.own? scope bound := by
  obtain ⟨w, describes, _⟩ := World.exists_describes reached
  refine ⟨?_, lookup_define_of_hidden describes.nested, Array.size_modify, outer?_define scope name value,
    ?_, fun bound differs => own?_define_of_ne (.inr differs)⟩
  · rintro ⟨rfl, unshadowed⟩
    exact lookup_define_of_unshadowed describes.nested present unshadowed
  · intro frame differs
    rw [getElem?_define, if_neg (Ne.symm differs)]

/-- A definition in the outermost of three scopes is seen there, but from the innermost one the binding of the
middle one hides it. -/
theorem lookup_define_of_shadowing :
    let t := shadowing.define 0 "x" .nil
    shadowing.Reached [.bool true, .bool false] ∧ t.lookup "x" 0 = some .nil ∧
      t.lookup "x" 2 = some (.bool false) := by
  have present : 0 < shadowing.scopes.size := by decide
  have defined (id : ScopeId) := lookup_define reached_shadowing present "x" "x" .nil id
  have hidden : ¬("x" = "x" ∧ shadowing.Unshadowed "x" 2 0) := by
    rintro ⟨_, unshadowed⟩
    obtain here | ⟨_, middle, ⟨⟩, unshadowed⟩ := unshadowed_iff.1 unshadowed
    · cases here
    · obtain here | ⟨free, _⟩ := unshadowed_iff.1 unshadowed
      · cases here
      · cases free
  exact ⟨reached_shadowing, (defined 0).1 ⟨rfl, unshadowed_self _ _ _⟩, ((defined 2).2.1 hidden).trans rfl⟩

end Store

end AnnotatedLisp
