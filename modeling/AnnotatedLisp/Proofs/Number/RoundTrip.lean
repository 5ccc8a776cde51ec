import AnnotatedLisp.Proofs.Number.Digits
import AnnotatedLisp.Proofs.Number.Exact

/-!
A finite number is read back from its text.

The decimal that is written denotes the number: the search for a short one tests this, and the exact value,
which stands behind the search, is a double. The sign is kept, also that of zero.
-/

namespace AnnotatedLisp

namespace Decimal

theorem value_reduced (digits places : Nat) : (reduced digits places).value = digits / 10 ^ places := by
  induction places generalizing digits with
  | zero => rfl
  | succ places ih =>
      unfold reduced
      split
      next divisible =>
        have split : digits = digits / 10 * 10 := by omega
        rw [ih, eq_div_iff (by positivity), div_mul_eq_mul_div, div_eq_iff (by positivity), pow_succ]
        conv_rhs => rw [split]
        push_cast
        ring
      · rfl

theorem places_reduced_le (digits places : Nat) : (reduced digits places).places ≤ places := by
  induction places generalizing digits with
  | zero => exact le_rfl
  | succ places ih =>
      unfold reduced
      split
      · exact (ih _).trans (Nat.le_succ places)
      · exact le_rfl

theorem value_ofHalves (mantissa halvings : Nat) :
    (ofHalves mantissa halvings).value = mantissa / 2 ^ halvings := by
  induction halvings generalizing mantissa with
  | zero => simp [ofHalves, value]
  | succ halvings ih =>
      unfold ofHalves
      split
      next even =>
        have split : (mantissa : ℚ) = (mantissa / 2 : Nat) * 2 := by
          exact_mod_cast (Nat.div_mul_cancel (Nat.dvd_of_mod_eq_zero even)).symm
        rw [ih, split, pow_succ]
        field_simp
      · have ten : (10 : ℚ) = 2 * 5 := by norm_num
        simp only [value, Nat.pow_eq]
        rw [ten, mul_pow]
        push_cast
        field_simp

theorem places_ofHalves_le (mantissa halvings : Nat) :
    (ofHalves mantissa halvings).places ≤ halvings := by
  induction halvings generalizing mantissa with
  | zero => exact le_rfl
  | succ halvings ih =>
      unfold ofHalves
      split
      · exact (ih _).trans (Nat.le_succ halvings)
      · exact le_rfl

open Number Float.Model Float.Model.UnpackedFloat

theorem value_exact (mantissa : Nat) (exponent : Int) :
    (exact mantissa exponent).value = dyadic mantissa exponent := by
  unfold exact
  split
  next whole =>
    have split : (2 : ℚ) ^ exponent = 2 ^ exponent.toNat := by
      rw [← zpow_natCast, Int.toNat_of_nonneg whole]
    simp [value, dyadic, split]
  next fraction =>
    have split : (2 : ℚ) ^ exponent = (2 ^ (-exponent).toNat)⁻¹ := by
      rw [← zpow_natCast, Int.toNat_of_nonneg (by omega), zpow_neg, inv_inv]
    rw [value_ofHalves, dyadic, split, div_eq_mul_inv]

theorem places_exact_le (mantissa : Nat) (exponent : Int) :
    (exact mantissa exponent).places ≤ (-exponent).toNat := by
  unfold exact
  split
  · exact Nat.zero_le _
  · exact places_ofHalves_le _ _

/-- What the search finds denotes the double. -/
theorem beq_of_search {d found : Decimal} {x : Float} {tries drop : Nat}
    (h : d.search x tries drop = some found) : (found.toFloat == x) = true := by
  induction tries generalizing drop with
  | zero => cases h
  | succ tries ih =>
      unfold search at h
      split at h
      next candidate first =>
        obtain rfl := Option.some.inj h
        have denotes := List.find?_some first
        exact denotes
      · split at h
        · cases h
        · exact ih h

theorem toFloat_shortest {x : Float} {mantissa : Nat} {exponent : Int} {positive : 0 < mantissa}
    (h : x.toModel.unpack = .finite .positive mantissa exponent positive) :
    ((exact mantissa exponent).shortest x).toFloat = x := by
  unfold shortest
  cases searched : (exact mantissa exponent).search x 17 _ with
  | some found => exact eq_of_beq h (beq_of_search searched)
  | none =>
      refine toFloat_eq h ((value_reduced _ _).trans (value_exact mantissa exponent)) ?_
      have := places_reduced_le (exact mantissa exponent).digits (exact mantissa exponent).places
      have := places_exact_le mantissa exponent
      have := (canonical_of_unpack h).least
      dsimp only [Option.getD_none]
      omega

end Decimal

namespace Number

open Float.Model Float.Model.UnpackedFloat

/-- A text that starts with a digit has no sign. -/
theorem ofChars?_text (d : Decimal) : ofChars? d.text = some d.toFloat := by
  obtain ⟨c, rest, text, digit⟩ := d.text_cons
  have read := d.ofText?_text
  rw [text] at read ⊢
  unfold ofChars?
  split
  next same =>
    cases same
    cases digit
  next same =>
    cases same
    cases digit
  · rw [read]
    rfl

theorem ofChars?_negative (d : Decimal) : ofChars? ('-' :: d.text) = some (-d.toFloat) := by
  rw [ofChars?, d.ofText?_text]
  rfl

/-- The text of a finite number is that of a decimal, and a sign for a negative one. -/
theorem chars_eq {x : Float} (finite : x.isFinite = true) :
    ∃ d : Decimal, (chars x = d.text ∧ d.toFloat = x) ∨ (chars x = '-' :: d.text ∧ -d.toFloat = x) := by
  have finite : x.toModel.unpack.isFinite = true := finite
  unfold chars
  cases h : x.toModel.unpack with
  | notANumber =>
      rw [h] at finite
      cases finite
  | infinity sign =>
      rw [h] at finite
      cases finite
  | zero sign =>
      refine ⟨⟨0, 0⟩, ?_⟩
      cases sign with
      | positive => exact .inl ⟨rfl, eq_of_unpack h.symm⟩
      | negative => exact .inr ⟨rfl, eq_of_unpack h.symm⟩
  | finite sign mantissa exponent positive =>
      have denoted := Decimal.toFloat_shortest (unpack_abs h)
      have signed := sign_abs h
      refine ⟨(Decimal.exact mantissa exponent).shortest x.abs, ?_⟩
      cases sign with
      | positive => exact .inl ⟨rfl, denoted.trans signed⟩
      | negative => exact .inr ⟨rfl, (congrArg _ denoted).trans signed⟩

theorem ofChars?_chars {x : Float} (finite : x.isFinite = true) : ofChars? (chars x) = some x := by
  obtain ⟨d, ⟨text, denoted⟩ | ⟨text, denoted⟩⟩ := chars_eq finite
  · rw [text, ofChars?_text, denoted]
  · rw [text, ofChars?_negative, denoted]

theorem chars_ne_nil {x : Float} (finite : x.isFinite = true) : chars x ≠ [] := by
  intro empty
  have read := ofChars?_chars finite
  rw [empty] at read
  cases read

/-- A finite number is written with digits, a point and a sign. -/
theorem mem_chars {x : Float} (finite : x.isFinite = true) {c : Char} (h : c ∈ chars x) :
    Decimal.isDigit c = true ∨ c = '.' ∨ c = '-' := by
  obtain ⟨d, ⟨text, _⟩ | ⟨text, _⟩⟩ := chars_eq finite
  · rw [text] at h
    exact (Decimal.mem_text h).imp_right .inl
  · rw [text] at h
    rcases List.mem_cons.1 h with rfl | h
    · exact .inr (.inr rfl)
    · exact (Decimal.mem_text h).imp_right .inl

end Number

end AnnotatedLisp
