import AnnotatedLisp.Proofs.Computation
import AnnotatedLisp.Proofs.Outcome
import AnnotatedLisp.Proofs.Simulation.Run
import AnnotatedLisp.Session.Turn
import Mathlib.Order.Filter.AtTopBot.Basic

/-!
Fuel only decides whether a run ends.

More fuel keeps every outcome, so a form has at most one outcome in a store, and facts on finitely many
evaluations hold together from some amount of fuel on. Operations of the host are asked not to tell
amounts of fuel apart: what they do with the evaluations they ask for may not change when these have
more.
-/

namespace AnnotatedLisp

open Eval Filter

/-- Nothing is asked of the stores of a run. -/
def Invariant.free : Invariant where
  holds _ := True
  contexts _ := True
  owns _ := True
  raises _ := True
  raises_unrefused _ := trivial
  countNode _ := trivial
  addScope _ _ := trivial
  owns_new _ := trivial
  define _ _ _ _ := trivial
  nested _ := trivial
  stamp _ _ _ _ _ := trivial

namespace Eval

variable {α : Type}

/-- The second computation ends as the first does, unless the first runs out of fuel. -/
def Refines (x y : Eval α) : Prop :=
  ∀ s : Store, (∃ t, x s = .error .exhausted t) ∨ y s = x s

theorem follows_iff_refines {x y : Eval α} :
    Invariant.free.simulation.Follows Anything x y ↔ Refines x y := by
  constructor
  · intro h s
    have outcomes := h ⟨Eq.refl s, trivial⟩
    generalize x s = r at outcomes ⊢
    generalize y s = r' at outcomes ⊢
    cases outcomes with
    | ok _ same => exact .inr (same.1 ▸ rfl)
    | error _ same => exact .inr (same.1 ▸ rfl)
    | exhausted => exact .inl ⟨_, rfl⟩
  · rintro h s _ ⟨rfl, _⟩
    obtain ⟨t, out⟩ | same := h s
    · rw [out]
      exact .exhausted
    · rw [same]
      cases x s with
      | ok a t => exact .ok trivial ⟨rfl, trivial⟩
      | error e t =>
          cases e with
          | error e => exact .error trivial ⟨rfl, trivial⟩
          | exhausted => exact .exhausted

theorem Refines.attempt_eq {x y : Eval α} (h : Refines x y) {s t : Store}
    {result : Except Error α} (ends : x.attempt s = .ok result t) :
    y.attempt s = .ok result t := by
  obtain ⟨u, again, rfl, _⟩ := (follows_iff_refines.2 h).attempt_eq ⟨rfl, trivial⟩ ends
  exact again

/-- Computations of which each one keeps the outcomes of those with less fuel. -/
def Growing (x : Nat → Eval α) : Prop :=
  ∀ ⦃m n : Nat⦄, m ≤ n → Refines (x m) (x n)

section Growing

variable {x y : Nat → Eval α} {s t u : Store} {result : Except Error α}

theorem Growing.ends_iff_eventually (grows : Growing x) :
    Ends x s result t ↔ ∀ᶠ fuel in atTop, (x fuel).attempt s = .ok result t := by
  constructor
  · rintro ⟨fuel, ends⟩
    exact eventually_atTop.2 ⟨fuel, fun more le => (grows le).attempt_eq ends⟩
  · intro ends
    obtain ⟨fuel, ends⟩ := eventually_atTop.1 ends
    exact ⟨fuel, ends fuel (Nat.le_refl fuel)⟩

theorem Growing.eventually_value (grows : Growing x) {a : α} (ends : Ends x s (.ok a) t) :
    ∀ᶠ fuel in atTop, x fuel s = .ok a t :=
  (grows.ends_iff_eventually.1 ends).mono fun _ => attempt_eq_value_iff.1

theorem Growing.eventually_error (grows : Growing x) {error : Error}
    (ends : Ends x s (.error error) t) :
    ∀ᶠ fuel in atTop, x fuel s = .error (.error error) t :=
  (grows.ends_iff_eventually.1 ends).mono fun _ => attempt_eq_error_iff.1

theorem Growing.ends_unique (grows : Growing x) {result' : Except Error α}
    (ends : Ends x s result t) (ends' : Ends x s result' u) : result = result' ∧ t = u := by
  obtain ⟨fuel, h, h'⟩ :=
    ((grows.ends_iff_eventually.1 ends).and (grows.ends_iff_eventually.1 ends')).exists
  rw [h] at h'
  injection h' with same stores
  exact ⟨same, stores⟩

/-- Computations that agree from some amount of fuel on, the first with so much more than the second,
have the same outcomes. -/
theorem Growing.ends_congr (grows : Growing x) (grows' : Growing y) (extra : Nat)
    (agree : ∀ᶠ fuel in atTop, x (fuel + extra) s = y fuel t) :
    Ends x s result u ↔ Ends y t result u := by
  constructor
  · intro ends
    have ends := (tendsto_add_atTop_nat extra).eventually (grows.ends_iff_eventually.1 ends)
    obtain ⟨fuel, ends, same⟩ := (ends.and agree).exists
    refine ⟨fuel, ?_⟩
    rwa [attempt, same] at ends
  · intro ends
    obtain ⟨fuel, ends, same⟩ := ((grows'.ends_iff_eventually.1 ends).and agree).exists
    refine ⟨fuel + extra, ?_⟩
    rwa [attempt, same]

end Growing

/-- What holds with one unit of fuel added holds from some amount on. -/
theorem eventually_of_succ {p : Nat → Prop} (h : ∀ᶠ fuel in atTop, p (fuel + 1)) :
    ∀ᶠ fuel in atTop, p fuel := by
  obtain ⟨least, h⟩ := eventually_atTop.1 h
  refine eventually_atTop.2 ⟨least + 1, fun fuel le => ?_⟩
  obtain ⟨fuel, rfl⟩ : ∃ n, fuel = n + 1 := ⟨fuel - 1, by omega⟩
  exact h fuel (by omega)

end Eval

/-- The operations of the host do not tell amounts of fuel apart. -/
def Host.Monotone (host : Host) : Prop :=
  ∀ e e' : Value → ScopeId → Eval Value,
    (∀ (form : Value) (scope : ScopeId), Refines (e form scope) (e' form scope)) →
    ∀ (name : String) (scope : ScopeId) (args : List Value),
      Refines (host.call e name scope args) (host.call e' name scope args)

theorem Host.none_monotone : Host.none.Monotone :=
  fun _ _ _ _ _ _ _ => .inr rfl

theorem Session.host_monotone : Session.host.Monotone :=
  fun _ _ _ _ _ _ _ => .inr rfl

namespace Simulation

theorem hosts_of_monotone {host : Host} (monotone : host.Monotone) :
    Invariant.free.simulation.Hosts host where
  levels contexts := contexts.1 ▸ ⟨rfl, rfl⟩
  top := ⟨rfl, trivial⟩
  refuses _ := trivial
  values := .evaluated
  call follows name scope args :=
    follows_iff_refines.2 <|
      monotone _ _ (fun form scope => follows_iff_refines.1 (@follows form scope trivial))
        name scope args

end Simulation

section

variable {host : Host} (monotone : host.Monotone) (ctx : Context) (form : Value) (scope : ScopeId)

include monotone

theorem evaluate_growing : Growing fun fuel => evaluate host fuel ctx form scope :=
  fun _ _ more => follows_iff_refines.1 <|
    Simulation.follows_evaluate (Simulation.hosts_of_monotone monotone) more ⟨rfl, trivial⟩ trivial
      form

theorem macroexpand_growing : Growing fun fuel => macroexpand host fuel ctx form scope :=
  fun _ _ more => follows_iff_refines.1 <|
    Simulation.follows_macroexpand (Simulation.hosts_of_monotone monotone) more ⟨rfl, trivial⟩ scope
      form

end

end AnnotatedLisp
