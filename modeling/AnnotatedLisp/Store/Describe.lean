import AnnotatedLisp.Form.Describe
import AnnotatedLisp.Store.Basic

/-!
Descriptions of what the store holds: which stamps a node has, and which names a scope binds.
-/

namespace AnnotatedLisp

def describeBool (b : Bool) : String :=
  if b then "true" else "false"

/-- The description of stamps: which of them there are. -/
def Stamps.description (stamps : Stamps) : String :=
  "EvalMetadata \x7b evaluated: " ++ describeBool stamps.evaluated.isSome
    ++ ", applied: " ++ describeBool stamps.applied.isSome
    ++ ", expansion: " ++ describeBool stamps.expansion.isSome ++ " \x7d"

/-- The description of a scope: its own names in order, and whether it is nested in another. -/
def Scope.description (scope : Scope) : String :=
  "Environment \x7b bindings: ["
    ++ ", ".intercalate (scope.bindings.keys.map describeQuoted)
    ++ "], has_outer: " ++ describeBool scope.outer.isSome ++ " \x7d"

end AnnotatedLisp
