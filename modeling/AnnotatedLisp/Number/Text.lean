import AnnotatedLisp.Number.Shortest

/-!
Numbers as texts.

A number is written positionally, never with an exponent: the shortest decimal that denotes it,
with a sign if it is negative, also for negative zero. It is read from an optional sign, digits, and
optionally a point and digits. The three numbers with no digits have a name and are not read back.
-/

namespace AnnotatedLisp

namespace Number

open Float.Model (UnpackedFloat)
open Float.Model.UnpackedFloat (Sign)

/-- The sign as it is written: only a negative one shows. -/
def signText : Sign → List Char
  | .positive => []
  | .negative => ['-']

def chars (x : Float) : List Char :=
  match x.toModel.unpack with
  | .notANumber => ['N', 'a', 'N']
  | .infinity sign => signText sign ++ ['i', 'n', 'f']
  | .zero sign => signText sign ++ ['0']
  | .finite sign mantissa exponent _ =>
    signText sign ++ ((Decimal.exact mantissa exponent).shortest x.abs).text

def text (x : Float) : String :=
  String.ofList (chars x)

def ofChars? : List Char → Option Float
  | '-' :: rest => (Decimal.ofText? rest).map fun d => -d.toFloat
  | '+' :: rest => (Decimal.ofText? rest).map Decimal.toFloat
  | text => (Decimal.ofText? text).map Decimal.toFloat

/-- Whether a text starts as numbers do: with a digit, or with a sign and a digit. -/
def looksNumeric : List Char → Bool
  | [] => false
  | [c] => Decimal.isDigit c
  | c :: d :: _ => Decimal.isDigit c || ((c == '-' || c == '+') && Decimal.isDigit d)

/-- The natural number that a number is, if it is one. -/
def toNat? (x : Float) : Option Nat :=
  match x.toModel.unpack with
  | .zero _ => some 0
  | .finite .positive mantissa exponent _ =>
    if 0 ≤ exponent then some (mantissa * Nat.pow 2 exponent.toNat)
    else
      let divisor := Nat.pow 2 (-exponent).toNat
      if mantissa % divisor = 0 then some (mantissa / divisor) else none
  | _ => none

end Number

end AnnotatedLisp
