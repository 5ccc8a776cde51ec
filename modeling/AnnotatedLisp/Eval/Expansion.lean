import AnnotatedLisp.Eval.Context

/-!
The expansion of macro calls.

A list whose head is a symbol bound to a macro is a macro call. It is replaced by what the body of the
macro gives for the forms in the call, until there is no macro call any more.
-/

namespace AnnotatedLisp

namespace Expansion

def callHead? : Value → Option String
  | .seq _ .list (.symbol name :: _) => some name
  | _ => none

def callArgs : Value → List Value
  | .seq _ _ (_ :: args) => args
  | _ => []

/-- Expands a form until it is no macro call, at most `fuel` times. What the head of a call is bound to is
stamped on it, whether it is a macro or not. -/
def run (enter : Context → Value → ScopeId → Eval Value) (ctx : Context) (scope : ScopeId) :
    Nat → Value → Eval Value
  | 0, _ => Eval.exhausted
  | fuel + 1, form =>
    match callHead? form with
    | none => return form
    | some name => do
      match ← Eval.lookup? scope name with
      | none => return form
      | some binding =>
        ctx.stampForm form fun stamps => { stamps with applied := some binding }
        match binding with
        | .fn _ params body outer true =>
          let inner ← Params.newScope outer params (callArgs form)
          let expanded ← enter ctx.nested body inner
          run enter ctx scope fuel expanded
        | _ => return form

end Expansion

end AnnotatedLisp
