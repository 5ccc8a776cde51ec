import AnnotatedLisp.Store.Eval

/-!
What computations do to a store, equation by equation, and what can be said of the parts of one whose
outcome is known.
-/

namespace AnnotatedLisp
namespace Eval

variable {α β : Type} {x : Eval α} {f : α → Eval β} {s t u : Store}

@[simp] theorem pure_apply (a : α) (s : Store) : (pure a : Eval α) s = .ok a s := rfl

@[simp] theorem lookup?_apply (scope : ScopeId) (name : String) (s : Store) :
    lookup? scope name s = .ok (s.lookup name scope) s := rfl

@[simp] theorem newNode_apply (s : Store) :
    newNode s = .ok s.nextNode { s with nextNode := s.nextNode + 1 } := rfl

@[simp] theorem newScope_apply (outer : ScopeId) (s : Store) :
    newScope outer s = .ok s.scopes.size (s.addScope (some outer)).2 := rfl

@[simp] theorem define_apply (scope : ScopeId) (name : String) (value : Value) (s : Store) :
    Eval.define scope name value s = .ok () (s.define scope name value) := rfl

theorem bind_of_ok {a : α} (h : x s = .ok a t) : (x >>= f) s = f a t := by
  change EStateM.bind x f s = f a t
  rw [EStateM.bind, h]

theorem bind_of_error {e : Stop} (h : x s = .error e t) : (x >>= f) s = .error e t := by
  change EStateM.bind x f s = .error e t
  rw [EStateM.bind, h]

@[simp] theorem pure_bind_apply (a : α) (f : α → Eval β) (s : Store) :
    ((pure a : Eval α) >>= f) s = f a s := rfl

theorem bind_eq_ok_iff {b : β} :
    (x >>= f) s = .ok b u ↔ ∃ a t, x s = .ok a t ∧ f a t = .ok b u := by
  cases h : x s with
  | ok a t => simp [bind_of_ok h, and_assoc]
  | error e t => simp [bind_of_error h]

theorem bind_eq_error_iff {e : Stop} :
    (x >>= f) s = .error e u ↔
      x s = .error e u ∨ ∃ a t, x s = .ok a t ∧ f a t = .error e u := by
  cases h : x s with
  | ok a t => simp [bind_of_ok h, and_assoc]
  | error e t => simp [bind_of_error h]

theorem lookup_of_bound {scope : ScopeId} {name : String} {value : Value}
    (bound : s.lookup name scope = some value) : lookup scope name s = .ok value s := by
  rw [lookup, bind_of_ok (lookup?_apply scope name s), bound]
  rfl

theorem attempt_of_ok {a : α} (h : x s = .ok a t) : x.attempt s = .ok (.ok a) t := by
  rw [attempt, h]

theorem attempt_of_error {error : Error} (h : x s = .error (.error error) t) :
    x.attempt s = .ok (.error error) t := by
  rw [attempt, h]

theorem attempt_eq_value_iff {a : α} : x.attempt s = .ok (.ok a) t ↔ x s = .ok a t := by
  rw [attempt]
  cases x s with
  | ok b u => simp
  | error e u => cases e <;> simp

theorem attempt_eq_error_iff {error : Error} :
    x.attempt s = .ok (.error error) t ↔ x s = .error (.error error) t := by
  rw [attempt]
  cases x s with
  | ok b u => simp
  | error e u => cases e <;> simp

/-- Two computations one after the other end in the error of the first or as the second ends. -/
theorem attempt_bind_eq_iff {result : Except Error β} :
    (x >>= f).attempt s = .ok result u ↔
      (∃ error, result = .error error ∧ x.attempt s = .ok (.error error) u) ∨
        ∃ a t, x s = .ok a t ∧ (f a).attempt t = .ok result u := by
  cases h : x s with
  | ok a t => simp [attempt, bind_of_ok h, h, and_assoc]
  | error e t =>
      rw [attempt, attempt, bind_of_error h, h]
      cases e with
      | error error =>
          constructor
          · rintro ⟨⟩
            exact .inl ⟨error, rfl, rfl⟩
          · rintro (⟨_, rfl, ⟨⟩⟩ | ⟨_, _, ⟨⟩, _⟩)
            rfl
      | exhausted => simp

/-- What is caught of a computation is never a stop for want of fuel, and there is no other failure. -/
theorem attempt_ne_error {error : Error} : x.attempt s ≠ .error (.error error) t := by
  rw [attempt]
  cases x s with
  | ok b u => simp
  | error e u => cases e <;> simp

end Eval
end AnnotatedLisp
