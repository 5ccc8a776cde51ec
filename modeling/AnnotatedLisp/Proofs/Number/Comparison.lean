import AnnotatedLisp.Form.Equality
import Mathlib

/-!
Equality of floating-point numbers: numbers are equal if they are the same number, or if both are a zero. What
is not a number is equal to nothing. So equality is symmetric and transitive.
-/

namespace AnnotatedLisp

namespace Number

open Float.Model

/-- Equal numbers are the same, except for the sign of zero. -/
theorem compare_eq_iff {a b : UnpackedFloat} :
    a.compare b = some .eq ↔
      a.isNaN = false ∧ (a = b ∨ ∃ s t : UnpackedFloat.Sign, a = .zero s ∧ b = .zero t) := by
  have numbers (m n : Nat) (e f : Int) :
      (compare e f).then (compare m n) = .eq ↔ m = n ∧ e = f := by
    rw [Ordering.then_eq_eq, Std.LawfulEqOrd.compare_eq_iff_eq, Std.LawfulEqOrd.compare_eq_iff_eq,
      and_comm]
  cases a with
  | notANumber => simp [UnpackedFloat.compare, UnpackedFloat.isNaN]
  | infinity s =>
      cases b with
      | infinity t =>
          have signs : compare s t = .eq ↔ s = t := by
            constructor
            · intro equal
              cases s <;> cases t <;> first | rfl | cases equal
            · rintro rfl
              cases s <;> rfl
          simp [UnpackedFloat.compare, UnpackedFloat.isNaN, signs]
      | _ => cases s <;> simp [UnpackedFloat.compare]
  | zero s =>
      cases b with
      | zero t => simp [UnpackedFloat.compare, UnpackedFloat.isNaN]
      | infinity t => cases t <;> simp [UnpackedFloat.compare]
      | finite t n f positive => cases t <;> simp [UnpackedFloat.compare]
      | notANumber => simp [UnpackedFloat.compare]
  | finite s m e positive =>
      cases b with
      | finite t n f positive' =>
          cases s <;> cases t <;>
            simp [UnpackedFloat.compare, UnpackedFloat.isNaN, numbers, Ordering.swap_eq_eq]
      | infinity t => cases t <;> simp [UnpackedFloat.compare]
      | zero t => cases s <;> simp [UnpackedFloat.compare]
      | notANumber => simp [UnpackedFloat.compare]

theorem beq_iff {x y : Float} :
    (x == y) = true ↔ x.toModel.unpack.compare y.toModel.unpack = some .eq := by
  change (x.toModel.unpack.compare y.toModel.unpack == some .eq) = true ↔ _
  exact beq_iff_eq

theorem beq_self_of_not_isNaN {x : Float} (number : x.isNaN = false) : (x == x) = true :=
  beq_iff.2 (compare_eq_iff.2 ⟨number, .inl rfl⟩)

theorem beq_symm {x y : Float} (equal : (x == y) = true) : (y == x) = true := by
  rw [beq_iff, compare_eq_iff] at equal ⊢
  obtain ⟨number, same | ⟨s, t, first, second⟩⟩ := equal
  · exact ⟨same ▸ number, .inl same.symm⟩
  · exact ⟨second ▸ rfl, .inr ⟨t, s, second, first⟩⟩

theorem beq_trans {x y z : Float} (first : (x == y) = true) (second : (y == z) = true) :
    (x == z) = true := by
  rw [beq_iff, compare_eq_iff] at first second ⊢
  obtain ⟨number, same | ⟨s, t, here, there⟩⟩ := first
  · exact ⟨number, same ▸ second.2⟩
  · obtain ⟨_, same | ⟨_, u, _, there⟩⟩ := second
    · exact ⟨number, .inr ⟨s, t, here, same ▸ there⟩⟩
    · exact ⟨number, .inr ⟨s, u, here, there⟩⟩

end Number

end AnnotatedLisp
