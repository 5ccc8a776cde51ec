import AnnotatedLisp.Proofs.Outcome
import AnnotatedLisp.Proofs.Simulation.Run

/-!
Definitions stay in the scope they are made in.

Evaluation in one scope leaves all others that were there before as they were, whether it ends in a
value or in an error: those around it, those captured by the functions and macros that it calls, those
of a `let`, a call or a handler that is over. The invariant is stated from the store at the start, so
that scopes added on the way are as free as the one evaluation began in.
-/

namespace AnnotatedLisp

/-- Of the scopes of `s`, only `own` may have got other bindings in `t`, and it still binds every name
that it bound. -/
structure Store.Confined (own : ScopeId) (s t : Store) : Prop where
  size_le : s.scopes.size ≤ t.scopes.size
  others : ∀ id < s.scopes.size, id ≠ own → t.scopes[id]? = s.scopes[id]?
  own_kept : ∀ scope : Scope, s.scopes[own]? = some scope →
    ∃ scope' : Scope, t.scopes[own]? = some scope' ∧ scope'.outer = scope.outer ∧
      ∀ name, (scope.bindings.find? name).isSome → (scope'.bindings.find? name).isSome

namespace Store

variable {own : ScopeId} {s t : Store}

theorem Confined.refl (own : ScopeId) (s : Store) : Confined own s s :=
  ⟨Nat.le_refl _, fun _ _ _ => rfl, fun scope h => ⟨scope, h, rfl, fun _ => id⟩⟩

theorem getElem?_addScope {id : ScopeId} (old : id < t.scopes.size) (outer : Option ScopeId) :
    (t.addScope outer).2.scopes[id]? = t.scopes[id]? := by
  simp only [addScope]
  rw [Array.getElem?_push_lt old, Array.getElem?_eq_getElem old]

theorem Confined.addScope (confined : Confined own s t) (outer : Option ScopeId) :
    Confined own s (t.addScope outer).2 := by
  have size : (t.addScope outer).2.scopes.size = t.scopes.size + 1 := by simp [Store.addScope]
  refine ⟨?_, ?_, ?_⟩
  · have := confined.size_le
    omega
  · intro id old other
    rw [getElem?_addScope (Nat.lt_of_lt_of_le old confined.size_le)]
    exact confined.others id old other
  · intro scope h
    obtain ⟨scope', h', outers, names⟩ := confined.own_kept scope h
    have old : own < t.scopes.size := (Array.getElem?_eq_some_iff.1 h').1
    exact ⟨scope', by rw [getElem?_addScope old, h'], outers, names⟩

theorem getElem?_define (scope id : ScopeId) (name : String) (value : Value) :
    (t.define scope name value).scopes[id]? =
      if scope = id then
        t.scopes[id]?.map fun scope => { scope with bindings := scope.bindings.insert name value }
      else t.scopes[id]? := by
  simp only [define, Array.getElem?_modify]

theorem Confined.define {scope : ScopeId} (confined : Confined own s t)
    (free : scope = own ∨ s.scopes.size ≤ scope) (name : String) (value : Value) :
    Confined own s (t.define scope name value) := by
  refine ⟨by simpa [Store.define] using confined.size_le, ?_, ?_⟩
  · intro id old other
    -- A scope other than `own` that may get definitions was not there in `s`.
    have away : scope ≠ id := by
      rintro rfl
      obtain same | new := free
      · exact other same
      · omega
    rw [getElem?_define, if_neg away]
    exact confined.others id old other
  · intro bound h
    obtain ⟨bound', h', outers, names⟩ := confined.own_kept bound h
    rw [getElem?_define, h']
    by_cases here : scope = own
    · rw [if_pos here]
      refine ⟨_, rfl, outers, fun other known => ?_⟩
      rw [Entries.find?_insert]
      split
      · rfl
      · exact names other known
    · rw [if_neg here]
      exact ⟨bound', rfl, outers, names⟩

end Store

namespace Invariant

/-- The run is watched from the store `s` in which it starts to evaluate in `own`. -/
def confining (own : ScopeId) (s : Store) : Invariant where
  holds := s.Confined own
  contexts _ := True
  owns scope := scope = own ∨ s.scopes.size ≤ scope
  raises _ := True
  raises_unrefused _ := trivial
  countNode confined := ⟨confined.size_le, confined.others, confined.own_kept⟩
  addScope outer confined := confined.addScope outer
  owns_new confined := .inr confined.size_le
  define name value free confined := confined.define free name value
  nested _ := trivial
  stamp _ _ _ _ confined := ⟨confined.size_le, confined.others, confined.own_kept⟩

end Invariant

/-- Lexical isolation, for programs that use no native operations but the core ones. -/
theorem confined_of_evaluates (ctx : Context) (form : Value) (scope : ScopeId) (s t : Store)
    (result : Except Error Value) (ends : Evaluates Host.none ctx form scope s result t) :
    s.Confined scope t := by
  obtain ⟨fuel, ends⟩ := ends
  have hosts := (Invariant.confining scope s).hosts_none trivial fun _ => trivial
  have follows : (Invariant.confining scope s).simulation.Follows Eval.Anything
      (evaluate Host.none fuel ctx form scope) (evaluate Host.none fuel ctx form scope) :=
    Simulation.follows_evaluate hosts (Nat.le_refl fuel) ⟨rfl, trivial⟩ (.inl rfl) form
  obtain ⟨u, ends', rfl, confined⟩ := follows.attempt_eq ⟨rfl, .refl scope s⟩ ends
  rw [ends] at ends'
  cases ends'
  exact confined

/-- A function of scope 0 is called in scope 1 and defines a name: neither of the two gets it. -/
theorem confined_of_call_with_def :
    let body : Value := .seq 2 .list [.symbol "def", .symbol "x", .bool false]
    let outer : Scope := ⟨[("f", .fn 0 (.seq 1 .vector []) body 0 false)], none⟩
    let s : Store := ⟨#[outer, ⟨[], some 0⟩], 4, ∅, ""⟩
    let t : Store := ⟨#[outer, ⟨[], some 0⟩, ⟨[("x", .bool false)], some 0⟩], 4, ∅, ""⟩
    Evaluates Host.none (.top false) (.seq 3 .list [.symbol "f"]) 1 s (.ok (.bool false)) t ∧
      s.Confined 1 t :=
  ⟨⟨4, rfl⟩, confined_of_evaluates (.top false) (.seq 3 .list [.symbol "f"]) 1 _ _ _ ⟨4, rfl⟩⟩

end AnnotatedLisp
