import AnnotatedLisp.Eval.Special
import AnnotatedLisp.Form.Equality

/-!
The step of a form.

A step ends in a value or in another form that takes the place of the first at the same level. Only
what has to be evaluated before a step can go on is evaluated at the next level.
-/

namespace AnnotatedLisp

namespace Evaluator

variable (ev : Evaluator) (ctx : Context) (scope : ScopeId)

/-- Evaluates forms in order, each nested in the current evaluation. -/
def enterAll (forms : List Value) : Eval (List Value) :=
  forms.mapM fun form => ev.enter ctx.nested form scope

def enterEntries (entries : List (MapKey × Value)) : Eval (List (MapKey × Value)) :=
  entries.mapM fun entry => return (entry.1, ← ev.enter ctx.nested entry.2 scope)

/-- Evaluates a form that is not a list. A symbol has the value that it is bound to, a vector or map is
made anew of the values of its parts, and anything else is its own value. -/
def evalAtom (form : Value) : Eval Value :=
  match form with
  | .symbol name => Eval.lookup scope name
  | .seq node _ items => do
    let value ← Eval.newSeq .vector (← ev.enterAll ctx scope items)
    ctx.stamp node fun stamps => { stamps with evaluated := some value }
    return value
  | .map node entries => do
    let value ← Eval.newMap (← ev.enterEntries ctx scope entries)
    ctx.stamp node fun stamps => { stamps with evaluated := some value }
    return value
  | form => return form

/-- Applies an operation to arguments. The body of a function takes the place of its call. -/
def stepApply (callee : Value) (args : List Value) : Eval Step :=
  match callee with
  | .fn _ params body outer _ => do
    return .tail body (← Params.newScope outer params args)
  | .native operation => return .done (← ev.apply operation args)
  | callee => Eval.raise (.uncallable callee)

/-- Takes a step of a call: evaluates its head and its arguments, then applies the one to the others. -/
def stepCall (node : NodeId) (head : Value) (args : List Value) : Eval Step := do
  let callee ← ev.enter ctx.nested head scope
  let args ← ev.enterAll ctx scope args
  ctx.stamp node fun stamps => { stamps with applied := some callee }
  ev.stepApply callee args

/-- Takes a step of a form that is not a macro call. -/
def step (form : Value) : Eval Step :=
  match form with
  | .seq node .list items =>
    match items with
    | [] => return .done form
    | head :: args =>
      match Special.ofHead? head with
      | some special => special.run ev ctx scope args
      | none => ev.stepCall ctx scope node head args
  | form => return .done (← ev.evalAtom ctx scope form)

/-- Replaces a macro call by its expansion. -/
def resolve (form : Value) : Eval Value :=
  match form with
  | .seq node .list _ => do
    let expanded ← ev.expand ctx form scope
    if !expanded.isSameNode form then
      ctx.stamp node fun stamps => { stamps with expansion := some expanded }
    return expanded
  | form => return form

end Evaluator

end AnnotatedLisp
