import AnnotatedLisp.Number.Decimal
import Mathlib.Algebra.Group.Nat.Defs

/-!
The text of a decimal is read back as that decimal.

The digits before the point end where the point stands, and there are as many behind it as there are places,
whether the fraction fills them or not.
-/

namespace AnnotatedLisp

namespace Decimal

theorem isDigit_eq (c : Char) : isDigit c = c.isDigit := by
  simp only [isDigit, Char.isDigit, Char.le_def]

theorem isDigit_of_mem_toDigits {n : Nat} {c : Char} (h : c ∈ Nat.toDigits 10 n) :
    isDigit c = true := by
  rw [isDigit_eq]
  exact Nat.isDigit_of_mem_toDigits (by decide) (by decide) h

theorem ofDigits_toDigits (n : Nat) : ofDigits (Nat.toDigits 10 n) = n :=
  Nat.ofDigitChars_ten_toDigits

theorem ofDigits_append (high low : List Char) :
    ofDigits (high ++ low) = 10 ^ low.length * ofDigits high + ofDigits low :=
  (Nat.ofDigitChars_append 0).trans Nat.ofDigitChars_eq_ofDigitChars_zero

theorem ofDigits_zeros (count : Nat) (digits : List Char) :
    ofDigits (List.replicate count '0' ++ digits) = ofDigits digits := by
  refine (Nat.ofDigitChars_append 0).trans ?_
  rw [Nat.ofDigitChars_replicate_zero, Nat.mul_zero]
  rfl

/-- Digits in front of anything that is no digit. -/
theorem span_digits {digits : List Char} (rest : List Char) (all : ∀ c ∈ digits, isDigit c = true)
    (stop : ∀ c ∈ rest.head?, isDigit c = false) :
    (digits ++ rest).takeWhile isDigit = digits ∧ (digits ++ rest).dropWhile isDigit = rest := by
  rw [List.takeWhile_append_of_pos all, List.dropWhile_append_of_pos all]
  cases rest with
  | nil => simp
  | cons c rest => simp [stop c rfl]

/-- The places of a decimal, the fraction behind as many zeros as are missing. -/
def fraction (d : Decimal) : List Char :=
  List.replicate (d.places - (Nat.toDigits 10 (d.digits % 10 ^ d.places)).length) '0' ++
    Nat.toDigits 10 (d.digits % 10 ^ d.places)

theorem text_eq (d : Decimal) :
    d.text = Nat.toDigits 10 (d.digits / 10 ^ d.places) ++
      if d.places = 0 then [] else '.' :: d.fraction := by
  unfold text
  split
  · exact (List.append_nil _).symm
  · rfl

theorem length_fraction {d : Decimal} (some : d.places ≠ 0) : d.fraction.length = d.places := by
  have fits : (Nat.toDigits 10 (d.digits % 10 ^ d.places)).length ≤ d.places :=
    (Nat.length_toDigits_le_iff (by decide) (Nat.pos_of_ne_zero some)).2
      (Nat.mod_lt _ (Nat.pow_pos (by decide)))
  rw [fraction, List.length_append, List.length_replicate, Nat.sub_add_cancel fits]

theorem isDigit_of_mem_fraction {d : Decimal} {c : Char} (h : c ∈ d.fraction) : isDigit c = true := by
  rcases List.mem_append.1 h with h | h
  · obtain rfl := List.eq_of_mem_replicate h
    rfl
  · exact isDigit_of_mem_toDigits h

/-- The text of a decimal starts with a digit. -/
theorem text_cons (d : Decimal) : ∃ c rest, d.text = c :: rest ∧ isDigit c = true := by
  cases digits : Nat.toDigits 10 (d.digits / 10 ^ d.places) with
  | nil => exact absurd digits Nat.toDigits_ne_nil
  | cons c rest =>
      refine ⟨c, _, by rw [text_eq, digits, List.cons_append], ?_⟩
      exact isDigit_of_mem_toDigits (digits ▸ List.mem_cons_self)

/-- A decimal is written with digits and a point. -/
theorem mem_text {d : Decimal} {c : Char} (h : c ∈ d.text) : isDigit c = true ∨ c = '.' := by
  rw [text_eq, List.mem_append] at h
  rcases h with h | h
  · exact .inl (isDigit_of_mem_toDigits h)
  · split at h
    · cases h
    · rcases List.mem_cons.1 h with rfl | h
      · exact .inr rfl
      · exact .inl (isDigit_of_mem_fraction h)

theorem ofText?_text (d : Decimal) : ofText? d.text = some d := by
  obtain ⟨digits, places⟩ := d
  have whole : ¬(Nat.toDigits 10 (digits / 10 ^ places)).isEmpty = true := by simp
  unfold ofText?
  rw [text_eq]
  dsimp only
  split
  next none =>
    obtain ⟨taken, dropped⟩ :=
      span_digits [] (fun _ => @isDigit_of_mem_toDigits (digits / 10 ^ places) _) (by simp)
    subst none
    simp only [taken, dropped, whole, ofDigits_toDigits]
    simp
  next some =>
    obtain ⟨taken, dropped⟩ :=
      span_digits ('.' :: fraction ⟨digits, places⟩)
        (fun _ => @isDigit_of_mem_toDigits (digits / 10 ^ places) _) (by simp [isDigit])
    have filled : (fraction ⟨digits, places⟩).length = places := length_fraction some
    have value : ofDigits (fraction ⟨digits, places⟩) = digits % 10 ^ places :=
      (ofDigits_zeros _ _).trans (ofDigits_toDigits _)
    have inhabited : fraction ⟨digits, places⟩ ≠ [] := by
      rw [← List.length_pos_iff, filled]
      exact Nat.pos_of_ne_zero some
    have all : (fraction ⟨digits, places⟩).all isDigit = true :=
      List.all_eq_true.2 fun _ => isDigit_of_mem_fraction
    simp only [taken, dropped, whole, ofDigits_append, ofDigits_toDigits, value, filled, all,
      Nat.div_add_mod]
    simp [inhabited]

end Decimal

end AnnotatedLisp
