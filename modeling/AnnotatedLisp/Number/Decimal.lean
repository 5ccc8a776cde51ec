/-!
Decimal fractions in positional notation.

A decimal is a natural number of units together with the number of places after the point, so it
stands for `digits / 10 ^ places`. It has one text, and it denotes the nearest double.
-/

namespace AnnotatedLisp

/-- The fraction `digits / 10 ^ places`. -/
structure Decimal where
  digits : Nat
  places : Nat
  deriving DecidableEq

namespace Decimal

/-- Whether a character is one of the ten ASCII digits. -/
def isDigit (c : Char) : Bool :=
  '0' ≤ c && c ≤ '9'

def ofDigits (digits : List Char) : Nat :=
  digits.foldl (fun n c => 10 * n + (c.toNat - '0'.toNat)) 0

/-- Reads one or more digits, then optionally a point and one or more digits. -/
def ofText? (text : List Char) : Option Decimal :=
  let whole := text.takeWhile isDigit
  if whole.isEmpty then none
  else match text.dropWhile isDigit with
    | [] => some ⟨ofDigits whole, 0⟩
    | '.' :: fraction =>
      if !fraction.isEmpty && fraction.all isDigit then
        some ⟨ofDigits (whole ++ fraction), fraction.length⟩
      else none
    | _ => none

/-- The digits before the point, then, unless there are no places, the point and every place. -/
def text (d : Decimal) : List Char :=
  let whole := Nat.toDigits 10 (d.digits / Nat.pow 10 d.places)
  if d.places = 0 then whole
  else
    let fraction := Nat.toDigits 10 (d.digits % Nat.pow 10 d.places)
    whole ++ '.' :: (List.replicate (d.places - fraction.length) '0' ++ fraction)

/-- The double nearest to the fraction, a tie going to the even neighbour. -/
def toFloat (d : Decimal) : Float :=
  Float.ofScientific d.digits true d.places

/-- The fraction `digits / 10 ^ places` with no zero after the point that could be left out. -/
def reduced (digits : Nat) : Nat → Decimal
  | 0 => ⟨digits, 0⟩
  | places + 1 => if digits % 10 = 0 then reduced (digits / 10) places else ⟨digits, places + 1⟩

/-- The fraction without its `drop` lowest digits, rounded down, plus `up` in the last digit kept. -/
def cut (d : Decimal) (drop up : Nat) : Decimal :=
  let kept := d.digits / Nat.pow 10 drop + up
  if drop ≤ d.places then reduced kept (d.places - drop)
  else ⟨kept * Nat.pow 10 (drop - d.places), 0⟩

end Decimal

end AnnotatedLisp
