import AnnotatedLisp.Proofs.Number.Canonical
import Mathlib.Algebra.Order.Field.Power
import Mathlib.Data.Rat.Cast.Order
import Mathlib.Tactic.FieldSimp
import Mathlib.Tactic.Positivity
import Mathlib.Tactic.NormNum
import Mathlib.Tactic.Ring

/-!
Arithmetic on doubles that need not round.
-/

namespace AnnotatedLisp

namespace Number

open Float.Model Float.Model.UnpackedFloat

/-- The number that a mantissa and an exponent make. -/
def dyadic (mantissa : Nat) (exponent : Int) : ℚ :=
  mantissa * 2 ^ exponent

section Bounds

variable {m n : Nat} {e f : Int}

theorem dyadic_pos (positive : 0 < m) : 0 < dyadic m e := by
  unfold dyadic
  positivity

theorem dyadic_lt (m : Nat) (e : Int) : dyadic m e < 2 ^ totalExponent m e := by
  have bound : (m : ℚ) < 2 ^ (m.log2 + 1) := by exact_mod_cast Nat.lt_log2_self
  unfold dyadic totalExponent
  rw [zpow_add₀ (by decide)]
  exact mul_lt_mul_of_pos_right (by exact_mod_cast bound) (by positivity)

theorem le_dyadic (positive : 0 < m) : 2 ^ (totalExponent m e - 1) ≤ dyadic m e := by
  have bound : ((2 ^ m.log2 : Nat) : ℚ) ≤ m := by exact_mod_cast Nat.log2_self_le (by omega)
  have split : totalExponent m e - 1 = m.log2 + e := by
    unfold totalExponent
    omega
  unfold dyadic
  rw [split, zpow_add₀ (by decide)]
  exact mul_le_mul_of_nonneg_right (by exact_mod_cast bound) (by positivity)

/-- With a smaller exponent the same number has a larger mantissa. -/
theorem dyadic_eq_iff (below : f ≤ e) :
    dyadic n f = dyadic m e ↔ n = m * 2 ^ (e - f).toNat := by
  have split : (2 : ℚ) ^ e = 2 ^ (e - f).toNat * 2 ^ f := by
    rw [← zpow_natCast, ← zpow_add₀ (by decide)]
    congr 1
    omega
  unfold dyadic
  rw [split, ← mul_assoc, mul_left_inj' (by positivity)]
  norm_cast

theorem dyadic_mul (m n : Nat) (e f : Int) : dyadic (m * n) (e + f) = dyadic m e * dyadic n f := by
  unfold dyadic
  rw [zpow_add₀ (by decide)]
  push_cast
  ring

/-- A product has at most as many digits as both factors together. -/
theorem totalExponent_le_add {k : Nat} {g : Int} (positive : 0 < n)
    (product : dyadic n f = dyadic m e * dyadic k g) :
    totalExponent n f ≤ totalExponent m e + totalExponent k g := by
  have bound : (2 : ℚ) ^ (totalExponent n f - 1) < 2 ^ (totalExponent m e + totalExponent k g) := by
    calc (2 : ℚ) ^ (totalExponent n f - 1) ≤ dyadic n f := le_dyadic positive
      _ = dyadic m e * dyadic k g := product
      _ < 2 ^ totalExponent m e * 2 ^ totalExponent k g := by
        refine mul_lt_mul'' (dyadic_lt m e) (dyadic_lt k g) ?_ ?_ <;> unfold dyadic <;> positivity
      _ = 2 ^ (totalExponent m e + totalExponent k g) := (zpow_add₀ (by decide) _ _).symm
  have := (zpow_lt_zpow_iff_right₀ (by norm_num)).1 bound
  omega

theorem totalExponent_congr (positive : 0 < n) (positive' : 0 < m)
    (same : dyadic n f = dyadic m e) : totalExponent n f = totalExponent m e := by
  have bounds : ∀ {a b : Nat} {x y : Int}, 0 < a → dyadic a x = dyadic b y →
      totalExponent a x ≤ totalExponent b y := fun {a b x y} positive same => by
    have bound := ((le_dyadic positive).trans_eq same).trans_lt (dyadic_lt b y)
    have := (zpow_lt_zpow_iff_right₀ (by norm_num)).1 bound
    omega
  exact le_antisymm (bounds positive same) (bounds positive' same.symm)

end Bounds

section Rounding

variable {m n : Nat} {e f : Int} {sign : Sign}

/-- The exponent with which a double is kept is the one that rounding aims at. -/
theorem targetExponent_of_canonical (canonical : Canonical m e) (positive : 0 < m) :
    Format.binary64.targetExponent (totalExponent m e) = e := by
  obtain ⟨fits, least, most, full⟩ := canonical
  have minimum : Format.binary64.minExponent = -1074 := by decide
  have bits : m.log2 < 53 := (Nat.log2_lt (by omega)).2 fits
  unfold Format.targetExponent totalExponent
  rw [mantissaBits_eq, minimum]
  rcases full with rfl | full
  · omega
  · have := log2_eq_of_full fits full
    omega

theorem shift_exact (m k : Nat) :
    ExtendedMantissa.ofMantissaAndAccuracy (m * 2 ^ k) .exact >>> k =
      ExtendedMantissa.ofMantissaAndAccuracy m .exact := by
  change k.repeat ExtendedMantissa.shiftRightOne _ = _
  induction k generalizing m with
  | zero => rw [Nat.pow_zero, Nat.mul_one, Nat.repeat]
  | succ k ih =>
      have split : m * 2 ^ (k + 1) = 2 * m * 2 ^ k := by rw [Nat.pow_succ]; ac_rfl
      rw [Nat.repeat, split, ih]
      simp [ExtendedMantissa.ofMantissaAndAccuracy, ExtendedMantissa.shiftRightOne]

theorem shiftToTargetExponent_exact (canonical : Canonical m e) (positive : 0 < m) (below : f ≤ e)
    (same : dyadic n f = dyadic m e) :
    shiftToTargetExponent .binary64 n f .exact =
      (ExtendedMantissa.ofMantissaAndAccuracy m .exact, e) := by
  obtain rfl := (dyadic_eq_iff below).1 same
  have total := totalExponent_congr (by positivity) positive same
  unfold shiftToTargetExponent shiftToExponent
  rw [total, targetExponent_of_canonical canonical positive]
  dsimp only
  rw [shift_exact]
  refine congrArg _ ?_
  omega

/-- What is a double already is not rounded. -/
theorem roundWithAccuracy_exact (canonical : Canonical m e) (positive : 0 < m) (below : f ≤ e)
    (same : dyadic n f = dyadic m e) :
    roundWithAccuracy .binary64 sign n f .exact = .finite sign m e positive := by
  unfold roundWithAccuracy
  rw [shiftToTargetExponent_exact canonical positive below same]
  have again := shiftToTargetExponent_exact canonical positive le_rfl rfl
  dsimp only [ExtendedMantissa.ofMantissaAndAccuracy, ExtendedMantissa.roundedMantissa,
    ExtendedMantissa.accuracy, Accuracy.roundToNearestEven]
  rw [again]
  exact dif_neg positive.ne'

/-- The exponent with which a quotient is computed is not above the one it is kept with. -/
theorem targetExponent_sub_le {k : Nat} {g : Int} (canonical : Canonical m e) (positive : 0 < m)
    (dividend : 0 < n) (quotient : dyadic n f = dyadic m e * dyadic k g) :
    Format.binary64.targetExponent (totalExponent n f - totalExponent k g) ≤ e := by
  have total := totalExponent_le_add dividend quotient
  have target := targetExponent_of_canonical canonical positive
  unfold Format.targetExponent at target ⊢
  omega

theorem divCore_exact {k : Nat} {g : Int} (canonical : Canonical m e) (positive : 0 < m)
    (dividend : 0 < n) (divisor : 0 < k) (quotient : dyadic n f = dyadic m e * dyadic k g) :
    ∃ q x, divCore .binary64 n f k g = (q, x, .exact) ∧ x ≤ e ∧ dyadic q x = dyadic m e := by
  have below := targetExponent_sub_le canonical positive dividend quotient
  unfold divCore
  set x := min (f - g) (Format.binary64.targetExponent (totalExponent n f - totalExponent k g)) with hx
  have least : x ≤ e := (min_le_right _ _).trans below
  have least' : x ≤ f - g := min_le_left _ _
  have kept : dyadic (m * 2 ^ (e - x).toNat) x = dyadic m e := (dyadic_eq_iff least).2 rfl
  -- The dividend, with as many bits as the exponent asks for, is a multiple of the divisor.
  have multiple : n * 2 ^ (f - g - x).toNat = m * 2 ^ (e - x).toNat * k := by
    have same : dyadic (m * 2 ^ (e - x).toNat * k) (x + g) = dyadic n f := by
      rw [dyadic_mul, kept, quotient]
    have split : f - g - x = f - (x + g) := by omega
    rw [(dyadic_eq_iff (by omega)).1 same, split]
  refine ⟨m * 2 ^ (e - x).toNat, x, ?_, least, kept⟩
  dsimp only
  rw [Nat.shiftLeft_eq, multiple, Nat.mul_div_cancel _ divisor, Nat.mul_mod_left]
  rfl

/-- A quotient that is a double is not rounded. -/
theorem div_exact {k : Nat} {g : Int} {sign' : Sign} (canonical : Canonical m e) (positive : 0 < m)
    (dividend : 0 < n) (divisor : 0 < k) (quotient : dyadic n f = dyadic m e * dyadic k g) :
    UnpackedFloat.div .binary64 (.finite sign n f dividend) (.finite sign' k g divisor) =
      .finite (sign / sign') m e positive := by
  obtain ⟨q, x, core, below, same⟩ := divCore_exact canonical positive dividend divisor quotient
  unfold UnpackedFloat.div
  dsimp only
  rw [core]
  exact roundWithAccuracy_exact canonical positive below same

/-- A product that is a double is not rounded. -/
theorem mul_exact {k : Nat} {g : Int} {sign' : Sign} (canonical : Canonical m e) (positive : 0 < m)
    {left : 0 < n} {right : 0 < k} (below : f + g ≤ e) (product : dyadic n f * dyadic k g = dyadic m e) :
    UnpackedFloat.mul .binary64 (.finite sign n f left) (.finite sign' k g right) =
      .finite (sign * sign') m e positive :=
  roundWithAccuracy_exact canonical positive below ((dyadic_mul n k f g).trans product)

theorem round_exact (canonical : Canonical m e) (positive : 0 < m) (given : 0 < n)
    (same : dyadic n f = dyadic m e) :
    UnpackedFloat.round .binary64 sign n f = .finite sign m e positive := by
  have total := totalExponent_congr given positive same
  unfold UnpackedFloat.round decreaseExponent
  rw [total, targetExponent_of_canonical canonical positive]
  dsimp only
  refine roundWithAccuracy_exact canonical positive (by omega) ?_
  rw [Nat.shiftLeft_eq, ← same]
  refine (dyadic_eq_iff (by omega)).2 ?_
  congr 2
  omega

end Rounding

theorem ofNat_eq_round {n : Nat} (positive : 0 < n) :
    UnpackedFloat.ofNat .binary64 n = UnpackedFloat.round .binary64 .positive n 0 := by
  unfold UnpackedFloat.ofNat UnpackedFloat.ofInt UnpackedFloat.normalize
  rw [Int.compare_eq_gt.2 (by omega)]
  rfl

/-- The double of a natural number that has no more than 53 bits. -/
theorem unpack_toFloat {n : Nat} (positive : 0 < n) (fits : n < 2 ^ 53) :
    ∃ m e, ∃ h : 0 < m, n.toUInt64.toFloat.toModel.unpack = .finite .positive m e h ∧
      dyadic m e = n := by
  have bits : n.log2 < 53 := (Nat.log2_lt (by omega)).2 fits
  have lower : 2 ^ n.log2 ≤ n := Nat.log2_self_le (by omega)
  have upper : n < 2 ^ (n.log2 + 1) := Nat.lt_log2_self
  set m := n * 2 ^ (52 - n.log2) with hm
  have full : 2 ^ 52 ≤ m := by
    calc 2 ^ 52 = 2 ^ n.log2 * 2 ^ (52 - n.log2) := by rw [← Nat.pow_add]; congr 1; omega
      _ ≤ m := Nat.mul_le_mul_right _ lower
  have short : m < 2 ^ 53 := by
    calc m < 2 ^ (n.log2 + 1) * 2 ^ (52 - n.log2) := Nat.mul_lt_mul_of_pos_right upper (by positivity)
      _ = 2 ^ 53 := by rw [← Nat.pow_add]; congr 1; omega
  have positive' : 0 < m := by omega
  have canonical : Canonical m (n.log2 - 52) := ⟨short, by omega, by omega, .inr full⟩
  have same : dyadic n 0 = dyadic m (n.log2 - 52) := by
    refine ((dyadic_eq_iff (by omega)).2 ?_).symm
    rw [hm]
    congr 2
    omega
  have whole : n.toUInt64.toNat = n := by
    rw [Nat.toUInt64, UInt64.toNat_ofNat']
    omega
  have made : n.toUInt64.toFloat = .ofModel (.pack (.finite .positive m (n.log2 - 52) positive')) := by
    change Float.ofModel (.pack (UnpackedFloat.ofNat .binary64 n.toUInt64.toNat)) = _
    rw [whole, ofNat_eq_round positive, round_exact canonical positive' positive same]
  refine ⟨m, (n.log2 : Int) - 52, positive', ?_, ?_⟩
  · rw [made]
    exact unpack_ofModel canonical
  · rw [← same, dyadic, zpow_zero, mul_one]

/-- Whether a double is a power of ten. -/
def isPowerOfTen (k : Nat) : UnpackedFloat → Bool
  | .finite .positive m e _ => decide (-52 ≤ e) && 10 ^ k * 2 ^ 52 == m * 2 ^ (e + 52).toNat
  | _ => false

theorem isPowerOfTen_table : ∀ k : Fin 23,
    isPowerOfTen k (Float.exactlyRepresentablePowersOfTen[k]).toModel.unpack = true := by
  decide +kernel

theorem unpack_of_isPowerOfTen {k : Nat} {u : UnpackedFloat} (h : isPowerOfTen k u = true) :
    ∃ m e, ∃ positive : 0 < m, u = .finite .positive m e positive ∧ dyadic m e = 10 ^ k := by
  unfold isPowerOfTen at h
  split at h
  next m e positive =>
    simp only [Bool.and_eq_true, decide_eq_true_eq, beq_iff_eq] at h
    refine ⟨m, e, positive, rfl, ?_⟩
    rw [← (dyadic_eq_iff h.1).2 h.2, dyadic]
    push_cast
    norm_num [mul_assoc]
  · cases h

end Number

namespace Decimal

open Number Float.Model Float.Model.UnpackedFloat

/-- The number that a decimal stands for. -/
def value (d : Decimal) : ℚ :=
  d.digits / 10 ^ d.places

section Denotation

variable {d : Decimal} {x : Float} {m : Nat} {e : Int} {positive : 0 < m}

theorem quotient_eq (same : d.value = dyadic m e) :
    (d.digits : ℚ) = dyadic m e * 10 ^ d.places := by
  rw [← same, value]
  field_simp

theorem digits_pos (positive : 0 < m) (same : d.value = dyadic m e) : 0 < d.digits := by
  have : (0 : ℚ) < d.digits := by
    rw [quotient_eq same]
    exact mul_pos (dyadic_pos positive) (by positivity)
  exact_mod_cast this

/-- Few digits are divided by a power of ten, both as doubles. -/
theorem fast_eq (h : x.toModel.unpack = .finite .positive m e positive) (same : d.value = dyadic m e)
    (short : d.digits < 2 ^ 53) (small : d.places < 23) :
    d.digits.toUInt64.toFloat / Float.exactlyRepresentablePowersOfTen[d.places] = x := by
  obtain ⟨n, f, positive', dividend, isDigits⟩ := unpack_toFloat (digits_pos positive same) short
  obtain ⟨k, g, positive'', divisor, isPower⟩ :=
    unpack_of_isPowerOfTen (isPowerOfTen_table ⟨d.places, small⟩)
  have quotient : dyadic n f = dyadic m e * dyadic k g := by
    rw [isDigits, isPower, quotient_eq same]
  have divided : UnpackedFloat.div .binary64 d.digits.toUInt64.toFloat.toModel.unpack
      Float.exactlyRepresentablePowersOfTen[d.places].toModel.unpack = x.toModel.unpack := by
    rw [dividend, h]
    refine (congrArg _ divisor).trans ?_
    exact div_exact (canonical_of_unpack h) positive positive' positive'' quotient
  exact (congrArg (fun u => Float.ofModel (.pack u)) divided).trans (ofModel_pack_unpack x)

/-- A natural number is a multiple of the last bit that a double of its size has. -/
theorem le_exponent_of_whole {n : Nat} (given : 0 < n) (canonical : Canonical m e)
    (same : dyadic n 0 = dyadic m e) : -53 ≤ e := by
  by_contra below
  have mantissa := (dyadic_eq_iff (by omega)).1 same.symm
  have large : 2 ^ 53 ≤ 2 ^ (0 - e).toNat := Nat.pow_le_pow_right (by decide) (by omega)
  have : 2 ^ (0 - e).toNat ≤ m := mantissa ▸ Nat.le_mul_of_pos_left _ given
  have := canonical.fits
  omega

/-- Other digits are multiplied or divided by a power of ten as they are. -/
theorem slow_eq (same : d.value = dyadic m e) (canonical : Canonical m e) (positive : 0 < m)
    (few : d.places ≤ 2048) :
    UnpackedFloat.ofScientific .binary64 d.digits (Int.negOfNat d.places) =
      .finite .positive m e positive := by
  have digits := digits_pos positive same
  have capacity : ((2 : Int) ^ Format.binary64.exponentBits) = 2048 := rfl
  have negated : Int.negOfNat d.places = -(d.places : Int) := Int.negOfNat_eq
  unfold UnpackedFloat.ofScientific
  rw [negated, capacity, dif_neg digits.ne', if_neg (by omega), if_neg (by omega)]
  split
  next none =>
    have none : d.places = 0 := by omega
    have whole : dyadic d.digits 0 = dyadic m e := by
      rw [dyadic, quotient_eq same, none]
      norm_num
    refine mul_exact canonical positive ?_ ?_
    · have := le_exponent_of_whole digits canonical whole
      rw [mantissaBits_eq]
      omega
    · have shifted : dyadic (d.digits * 2 ^ 53) (-53) = dyadic d.digits 0 :=
        (dyadic_eq_iff (by decide)).2 rfl
      rw [Nat.shiftLeft_eq, mantissaBits_eq, none]
      refine (congrArg (· * dyadic 1 0) shifted).trans ?_
      rw [whole]
      simp [dyadic]
  next some =>
    refine div_exact canonical positive digits (by positivity) ?_
    have power : (-(-(d.places : Int))).toNat = d.places := by omega
    rw [power]
    simpa [dyadic] using quotient_eq same

/-- A decimal that is a double denotes that double. -/
theorem toFloat_eq (h : x.toModel.unpack = .finite .positive m e positive)
    (same : d.value = dyadic m e) (few : d.places ≤ 2048) : d.toFloat = x := by
  unfold toFloat Float.ofScientific
  split
  next fast => exact fast_eq h same fast.1 (by omega)
  next slow =>
    change Float.ofModel (.pack (UnpackedFloat.ofScientific .binary64 _ (Int.negOfNat _))) = x
    rw [slow_eq same (canonical_of_unpack h) positive few, ← h, ofModel_pack_unpack]

end Denotation

end Decimal

end AnnotatedLisp
