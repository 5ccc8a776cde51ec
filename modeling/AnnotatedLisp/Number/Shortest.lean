import AnnotatedLisp.Number.Decimal

/-!
The shortest decimal that denotes a given double.

A finite double `m * 2 ^ e` is an exact decimal. Of its neighbours with `n` leading digits the first
`n` for which one denotes the same double gives the answer; of two such neighbours the nearer one is
taken, and a tie goes up. Seventeen digits are always enough, and the exact decimal stands behind
the search.
-/

namespace AnnotatedLisp

namespace Decimal

/-- The exact value of `mantissa / 2 ^ halvings`, with as few places as it can have. -/
def ofHalves (mantissa : Nat) : Nat → Decimal
  | 0 => ⟨mantissa, 0⟩
  | halvings + 1 =>
    if mantissa % 2 = 0 then ofHalves (mantissa / 2) halvings
    else ⟨mantissa * Nat.pow 5 (halvings + 1), halvings + 1⟩

/-- The exact value of `mantissa * 2 ^ exponent`. -/
def exact (mantissa : Nat) (exponent : Int) : Decimal :=
  if 0 ≤ exponent then ⟨mantissa * Nat.pow 2 exponent.toNat, 0⟩
  else ofHalves mantissa (-exponent).toNat

/-- The neighbours of `d` that keep all but `drop` digits, the nearer one first. -/
def neighbours (d : Decimal) (drop : Nat) : List Decimal :=
  if 2 * (d.digits % Nat.pow 10 drop) < Nat.pow 10 drop then [d.cut drop 0, d.cut drop 1]
  else [d.cut drop 1, d.cut drop 0]

/-- The first neighbour of `d` that denotes `x`, among those that keep all but `drop`, `drop - 1`, …
digits, looking at `tries` numbers of digits. -/
def search (d : Decimal) (x : Float) : Nat → Nat → Option Decimal
  | 0, _ => none
  | tries + 1, drop =>
    match (d.neighbours drop).find? fun candidate => candidate.toFloat == x with
    | some found => some found
    | none => if drop = 0 then none else d.search x tries (drop - 1)

/-- The shortest decimal that denotes the positive double `x`, whose exact value is `d`. -/
def shortest (d : Decimal) (x : Float) : Decimal :=
  (d.search x 17 ((Nat.toDigits 10 d.digits).length - 1)).getD (reduced d.digits d.places)

end Decimal

end AnnotatedLisp
