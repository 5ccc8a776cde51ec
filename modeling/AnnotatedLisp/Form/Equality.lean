import AnnotatedLisp.Form.Basic

/-!
Equality of forms as programs see it.

Atoms are equal by what they hold, numbers as floating-point numbers; lists and vectors by their
items, whichever of the two they are; maps by their entries; native operations by their names;
functions only to themselves. A compound node is equal to itself without a look at its contents.
-/

namespace AnnotatedLisp

namespace Form

variable {ι : Type}

mutual

/-- Equality of forms, given when two labels are those of one node. -/
def equal (same : ι → ι → Bool) : Form ι → Form ι → Bool
  | nil, nil => true
  | bool a, bool b => a == b
  | number a, number b => a == b
  | string a, string b => a == b
  | keyword a, keyword b => a == b
  | symbol a, symbol b => a == b
  | seq a _ xs, seq b _ ys => same a b || equalItems same xs ys
  | map a xs, map b ys => same a b || equalEntries same xs ys
  | native a, native b => a.name == b.name
  | fn a _ _ _ _, fn b _ _ _ _ => same a b
  | _, _ => false

def equalItems (same : ι → ι → Bool) : List (Form ι) → List (Form ι) → Bool
  | [], [] => true
  | x :: xs, y :: ys => equal same x y && equalItems same xs ys
  | _, _ => false

def equalEntries (same : ι → ι → Bool) :
    List (MapKey × Form ι) → List (MapKey × Form ι) → Bool
  | [], [] => true
  | (j, x) :: xs, (k, y) :: ys => j == k && equal same x y && equalEntries same xs ys
  | _, _ => false

end

end Form

/-- Data have no identity: only their contents count. -/
instance : BEq Datum := ⟨Form.equal fun _ _ => false⟩

namespace Value

instance : BEq Value := ⟨Form.equal (· == ·)⟩

/-- Whether two values are the very same list, vector, map or function. -/
def isSameNode : Value → Value → Bool
  | .seq a _ _, .seq b _ _ => a == b
  | .map a _, .map b _ => a == b
  | .fn a _ _ _ _, .fn b _ _ _ _ => a == b
  | _, _ => false

end Value

end AnnotatedLisp
