import AnnotatedLisp.Number.Text
import Mathlib

/-!
Doubles as mantissas and exponents.

A finite double other than zero is a mantissa of at most 53 bits and an exponent. The exponent is the least
one, or else the mantissa has all its bits. Such a mantissa and exponent are kept when they are packed into
a double, and a double is what its unpacked form is packed into.
-/

namespace AnnotatedLisp

namespace Number

open Float.Model Float.Model.UnpackedFloat

/-- The mantissa and the exponent are those with which a double is kept. -/
structure Canonical (mantissa : Nat) (exponent : Int) : Prop where
  fits : mantissa < 2 ^ 53
  least : -1074 ≤ exponent
  most : exponent ≤ 971
  full : exponent = -1074 ∨ 2 ^ 52 ≤ mantissa

theorem bias_eq : (Format.binary64.exponentBias : Int) = 1023 := rfl

theorem fractionBits_eq : (Format.binary64.mantissaBitsWithoutImplicit : Int) = 52 := rfl

theorem mantissaBits_eq : Format.binary64.mantissaBits = 53 := rfl

theorem toNat_implicit (fraction : BitVec 52) :
    (1#1 ++ fraction).toNat = 2 ^ 52 + fraction.toNat := by
  rw [BitVec.toNat_append, ← Nat.shiftLeft_add_eq_or_of_lt fraction.isLt]
  rfl

theorem toBitVec_ofBitVec (b : BitVec 1) : (Sign.ofBitVec b).toBitVec = b := by
  revert b
  decide

theorem ofBitVec_toBitVec (sign : Sign) : Sign.ofBitVec sign.toBitVec = sign := by
  cases sign <;> rfl

theorem unpackSign_packComponents {spec : Format} (sign : Sign) (exponent : BitVec spec.exponentBits)
    (fraction : BitVec spec.mantissaBitsWithoutImplicit) :
    unpackSign (packComponents spec sign exponent fraction) = sign.toBitVec := by
  ext i hi
  obtain rfl : i = 0 := by omega
  simp [unpackSign, packComponents, BitVec.getLsbD_append, BitVec.getElem_append]

/-- A double is made up of its three components. -/
theorem packComponents_unpack (b : BitVec Format.binary64.numBits) :
    packComponents .binary64 (Sign.ofBitVec (unpackSign b)) (unpackExponent b) (unpackMantissa b) =
      b := by
  simp only [packComponents, toBitVec_ofBitVec, unpackSign, unpackExponent, unpackMantissa,
    BitVec.extractLsb]
  ext i hi
  grind

theorem canonical_of_unpack {b : BitVec Format.binary64.numBits} {sign : Sign} {mantissa : Nat}
    {exponent : Int} {positive : 0 < mantissa}
    (h : UnpackedFloat.unpack .binary64 b = .finite sign mantissa exponent positive) :
    Canonical mantissa exponent := by
  have fraction : (unpackMantissa b).toNat < 2 ^ 52 := (unpackMantissa b).isLt
  have bound : (unpackExponent b).toNat < 2 ^ 11 := (unpackExponent b).isLt
  unfold UnpackedFloat.unpack at h
  dsimp only at h
  split at h
  · split at h <;> cases h
  next finite =>
    have finite : (unpackExponent b).toNat ≠ 2 ^ 11 - 1 := fun same =>
      finite (BitVec.eq_of_toNat_eq same)
    split at h
    next zero =>
      split at h
      · cases h
      · cases h
        rw [zero]
        exact ⟨by omega, by decide, by decide, .inl rfl⟩
    next normal =>
      have normal : (unpackExponent b).toNat ≠ 0 := fun same => normal (BitVec.eq_of_toNat_eq same)
      cases h
      rw [toNat_implicit, bias_eq]
      exact ⟨by omega, by omega, by omega, .inr (by omega)⟩

theorem log2_eq_of_full {mantissa : Nat} (fits : mantissa < 2 ^ 53) (full : 2 ^ 52 ≤ mantissa) :
    mantissa.log2 = 52 := by
  have := (Nat.log2_lt (by omega)).2 fits
  have := (Nat.le_log2 (by omega)).2 full
  omega

theorem log2_lt_of_short {mantissa : Nat} (positive : 0 < mantissa) (short : mantissa < 2 ^ 52) :
    mantissa.log2 < 52 :=
  (Nat.log2_lt (by omega)).2 short

theorem pack_normal {sign : Sign} {mantissa : Nat} {exponent : Int} (positive : 0 < mantissa)
    (fits : mantissa < 2 ^ 53) (full : 2 ^ 52 ≤ mantissa) (least : -1074 ≤ exponent)
    (most : exponent ≤ 971) :
    UnpackedFloat.pack .binary64 (.finite sign mantissa exponent positive) =
      packComponents .binary64 sign (BitVec.ofNat 11 (exponent + 1075).toNat)
        (BitVec.ofNat 52 mantissa) := by
  have biased : (exponent + Format.binary64.exponentBias +
      (Format.binary64.mantissaBitsWithoutImplicit : Int)).toNat = (exponent + 1075).toNat := by
    rw [bias_eq, fractionBits_eq]
    omega
  have bound : ¬2 ^ Format.binary64.exponentBits ≤ (exponent + 1075).toNat + 1 := by
    have : 2 ^ Format.binary64.exponentBits = 2048 := rfl
    omega
  unfold UnpackedFloat.pack
  dsimp only
  rw [biased, if_neg bound, mantissaBits_eq, log2_eq_of_full fits full, if_pos rfl]

theorem pack_subnormal {sign : Sign} {mantissa : Nat} (positive : 0 < mantissa)
    (short : mantissa < 2 ^ 52) :
    UnpackedFloat.pack .binary64 (.finite sign mantissa (-1074) positive) =
      packComponents .binary64 sign 0#11 (BitVec.ofNat 52 mantissa) := by
  have bits := log2_lt_of_short positive short
  unfold UnpackedFloat.pack
  dsimp only
  rw [if_neg (by decide), mantissaBits_eq, if_neg (by omega)]

/-- What a mantissa and an exponent that are kept are packed into unpacks to them. -/
theorem unpack_pack {mantissa : Nat} {exponent : Int} (canonical : Canonical mantissa exponent)
    (sign : Sign) (positive : 0 < mantissa) :
    UnpackedFloat.unpack .binary64 (UnpackedFloat.pack .binary64 (.finite sign mantissa exponent positive)) =
      .finite sign mantissa exponent positive := by
  obtain ⟨fits, least, most, full⟩ := canonical
  by_cases normal : 2 ^ 52 ≤ mantissa
  · have biased : (BitVec.ofNat 11 (exponent + 1075).toNat).toNat = (exponent + 1075).toNat := by
      rw [BitVec.toNat_ofNat, Nat.mod_eq_of_lt (by omega)]
    have fraction : (1#1 ++ BitVec.ofNat 52 mantissa).toNat = mantissa := by
      rw [toNat_implicit, BitVec.toNat_ofNat]
      omega
    have finite : BitVec.ofNat 11 (exponent + 1075).toNat ≠ -1#11 := fun same => by
      have := biased.symm.trans (congrArg BitVec.toNat same)
      simp at this
      omega
    have normal' : BitVec.ofNat 11 (exponent + 1075).toNat ≠ 0#11 := fun same => by
      have := biased.symm.trans (congrArg BitVec.toNat same)
      simp at this
      omega
    rw [pack_normal positive fits normal least most]
    unfold UnpackedFloat.unpack
    simp only [unpackMantissa_packComponents, unpackExponent_packComponents,
      unpackSign_packComponents, ofBitVec_toBitVec, biased, fraction, bias_eq]
    rw [if_neg finite, if_neg normal']
    congr 1
    rw [fractionBits_eq]
    omega
  · have short : mantissa < 2 ^ 52 := by omega
    obtain rfl : exponent = -1074 := full.resolve_right normal
    have fraction : (BitVec.ofNat 52 mantissa).toNat = mantissa := by
      rw [BitVec.toNat_ofNat, Nat.mod_eq_of_lt short]
    have nonzero : BitVec.ofNat 52 mantissa ≠ 0#52 := fun same => by
      have := fraction.symm.trans (congrArg BitVec.toNat same)
      simp at this
      omega
    rw [pack_subnormal positive short]
    unfold UnpackedFloat.unpack
    simp only [unpackMantissa_packComponents, unpackExponent_packComponents,
      unpackSign_packComponents, ofBitVec_toBitVec, fraction]
    rw [if_neg (by decide), if_pos trivial, dif_neg nonzero]
    rfl

/-- A double is what its unpacked form is packed into. -/
theorem pack_unpack {b : BitVec Format.binary64.numBits} (valid : Format.binary64.Valid b) :
    UnpackedFloat.pack .binary64 (UnpackedFloat.unpack .binary64 b) = b := by
  have made := packComponents_unpack b
  have fraction : (unpackMantissa b).toNat < 2 ^ 52 := (unpackMantissa b).isLt
  have bound : (unpackExponent b).toNat < 2 ^ 11 := (unpackExponent b).isLt
  unfold UnpackedFloat.unpack
  dsimp only
  split
  next infinite =>
    rw [infinite] at made
    split
    next zero =>
      rw [zero] at made
      exact made
    next payload => exact (valid.eq_packedNaN infinite payload).symm
  next finite =>
    have finite : (unpackExponent b).toNat ≠ 2 ^ 11 - 1 := fun same =>
      finite (BitVec.eq_of_toNat_eq same)
    split
    next least =>
      rw [least] at made ⊢
      split
      next zero =>
        rw [zero] at made
        exact made
      next nonzero =>
        refine (pack_subnormal _ fraction).trans ?_
        rw [BitVec.ofNat_toNat, BitVec.setWidth_eq]
        exact made
    next normal =>
      have normal : (unpackExponent b).toNat ≠ 0 := fun same => normal (BitVec.eq_of_toNat_eq same)
      have implicit := toNat_implicit (unpackMantissa b)
      have exponent : BitVec.ofNat 11 (((unpackExponent b).toNat -
          (Format.binary64.exponentBias + (Format.binary64.mantissaBitsWithoutImplicit : Int)) + 1075).toNat) =
          unpackExponent b := by
        refine BitVec.eq_of_toNat_eq ?_
        rw [BitVec.toNat_ofNat, bias_eq, fractionBits_eq]
        omega
      have mantissa : BitVec.ofNat 52 (1#1 ++ unpackMantissa b).toNat = unpackMantissa b := by
        refine BitVec.eq_of_toNat_eq ?_
        rw [BitVec.toNat_ofNat, implicit]
        omega
      refine (pack_normal _ (by omega) (by omega) ?_ ?_).trans ?_
      · rw [bias_eq, fractionBits_eq]
        omega
      · rw [bias_eq, fractionBits_eq]
        omega
      · rw [exponent, mantissa]
        exact made

theorem ofModel_pack_unpack (x : Float) : .ofModel (.pack x.toModel.unpack) = x := by
  obtain ⟨⟨bits, valid⟩⟩ := x
  have same : UInt64.ofBitVec (UnpackedFloat.pack .binary64 (UnpackedFloat.unpack .binary64
      bits.toBitVec)) = bits := by
    rw [pack_unpack valid]
  refine congrArg Float.ofModel ?_
  simp only [Float.Model.pack, Float.Model.unpack, same]

/-- Doubles with the same unpacked form are the same. -/
theorem eq_of_unpack {x y : Float} (h : x.toModel.unpack = y.toModel.unpack) : x = y := by
  rw [← ofModel_pack_unpack x, h, ofModel_pack_unpack]

section Finite

variable {sign : Sign} {mantissa : Nat} {exponent : Int} {positive : 0 < mantissa}

/-- The double that such a mantissa and exponent are packed into. -/
theorem unpack_ofModel (canonical : Canonical mantissa exponent) :
    (Float.ofModel (.pack (.finite sign mantissa exponent positive))).toModel.unpack =
      .finite sign mantissa exponent positive :=
  unpack_pack canonical sign positive

theorem unpack_abs {x : Float} (h : x.toModel.unpack = .finite sign mantissa exponent positive) :
    x.abs.toModel.unpack = .finite .positive mantissa exponent positive := by
  have made : x.abs = .ofModel (.pack (.finite .positive mantissa exponent positive)) :=
    congrArg (fun u : UnpackedFloat => Float.ofModel (.pack u.abs)) h
  rw [made]
  exact unpack_ofModel (canonical_of_unpack h)

/-- A double is its magnitude, or the negation of its magnitude. -/
theorem sign_abs {x : Float} (h : x.toModel.unpack = .finite sign mantissa exponent positive) :
    (match sign with
      | .positive => x.abs
      | .negative => -x.abs) = x := by
  have magnitude := unpack_abs h
  cases sign with
  | positive => exact eq_of_unpack (magnitude.trans h.symm)
  | negative =>
      have made : -x.abs = .ofModel (.pack (.finite .negative mantissa exponent positive)) :=
        congrArg (fun u : UnpackedFloat => Float.ofModel (.pack u.neg)) magnitude
      refine eq_of_unpack (Eq.trans ?_ h.symm)
      rw [made]
      exact unpack_ofModel (canonical_of_unpack h)

/-- Of the doubles only itself compares equal to a positive one. -/
theorem eq_of_beq {x y : Float} (h : y.toModel.unpack = .finite .positive mantissa exponent positive)
    (same : (x == y) = true) : x = y := by
  have compared : x.toModel.unpack.compare y.toModel.unpack = some .eq := by
    have : (x.toModel.unpack.compare y.toModel.unpack == some .eq) = true := same
    simpa using this
  refine eq_of_unpack ?_
  rw [h] at compared ⊢
  cases u : x.toModel.unpack with
  | finite sign' m e positive' =>
      rw [u] at compared
      cases sign' with
      | negative => cases compared
      | positive =>
          have compared : (compare e exponent).then (compare m mantissa) = .eq := Option.some.inj compared
          obtain ⟨exponents, mantissas⟩ := Ordering.then_eq_eq.1 compared
          obtain rfl := Std.LawfulEqOrd.eq_of_compare exponents
          obtain rfl := Std.LawfulEqOrd.eq_of_compare mantissas
          rfl
  | notANumber =>
      rw [u] at compared
      cases compared
  | zero sign' =>
      rw [u] at compared
      cases sign' <;> cases compared
  | infinity sign' =>
      rw [u] at compared
      cases sign' <;> cases compared

end Finite

end Number

end AnnotatedLisp
