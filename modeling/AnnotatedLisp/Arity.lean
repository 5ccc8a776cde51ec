/-!
Accepted numbers of arguments.
-/

namespace AnnotatedLisp

inductive Arity where
  | exact (count : Nat)
  | atLeast (count : Nat)
  | any
  deriving DecidableEq

namespace Arity

def accepts : Arity → Nat → Bool
  | exact count, got => got == count
  | atLeast count, got => count ≤ got
  | any, _ => true

def text : Arity → String
  | exact count => toString count
  | atLeast count => "at least " ++ toString count
  | any => "any number of"

def description : Arity → String
  | exact count => "Exact(" ++ toString count ++ ")"
  | atLeast count => "AtLeast(" ++ toString count ++ ")"
  | any => "Any"

end Arity

end AnnotatedLisp
