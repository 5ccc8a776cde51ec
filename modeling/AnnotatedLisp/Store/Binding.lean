import AnnotatedLisp.Store.Eval

/-!
Parameters: how the arguments of a call, or the value in a `let`, are given names.

A symbol names the whole value. A list or vector of parameters names the items of a list or vector, one
by one; after the symbol `&` one more parameter names the list of all remaining items. `nil` has no
items.
-/

namespace AnnotatedLisp

namespace Params

/-- The symbol before the parameter for the remaining items. -/
def restMarker : String := "&"

/-- How many items a list of parameters takes, unless something other than one parameter follows the
first `&`. -/
def arity? (params : List Value) : Option Arity :=
  let fixed := params.takeWhile fun param => !param.isSymbol restMarker
  match params.dropWhile fun param => !param.isSymbol restMarker with
  | [] => some (.exact fixed.length)
  | [_, _] => some (.atLeast fixed.length)
  | _ => none

/-- Refuses parameters that cannot take so many items. -/
def check (params : List Value) (got : Nat) : Except Error Unit :=
  match arity? params with
  | some arity => arity.check got
  | none => .error (.invalidForm "& must be followed by exactly one parameter")

mutual

def bind (scope : ScopeId) : Value → Value → Eval Unit
  | .symbol name, value => Eval.define scope name value
  | .seq label kind params, value =>
    match value.elements? with
    | some items => do
      Eval.ofExcept (check params items.length)
      bindItems scope params items
    | none =>
      Eval.raise (.invalidForm
        ("cannot destructure " ++ value.kindName ++ " " ++ value.text ++ " with " ++
          (Form.seq label kind params).text))
  | param, _ =>
    Eval.raise (.invalidForm ("parameter must be a symbol, list or vector, got " ++ param.text))

/-- Names items in a scope, which are as many as the parameters take. -/
def bindItems (scope : ScopeId) : List Value → List Value → Eval Unit
  | [], _ => return
  | param :: params, items =>
    if param.isSymbol restMarker then
      match params with
      | [] => return
      | rest :: _ => do bind scope rest (← Eval.newList items)
    else
      match items with
      | [] => return
      | item :: items => do
        bind scope param item
        bindItems scope params items

end

def bindAll (scope : ScopeId) (params : Value) (args : List Value) : Eval Unit :=
  match params with
  | .symbol name => do Eval.define scope name (← Eval.newList args)
  | .seq _ _ params => do
    Eval.ofExcept (check params args.length)
    bindItems scope params args
  | params =>
    Eval.raise (.invalidForm
      ("parameter spec must be a symbol, list or vector, got " ++ params.text))

/-- A new scope for a call, with the arguments named in it. -/
def newScope (outer : ScopeId) (params : Value) (args : List Value) : Eval ScopeId := do
  let scope ← Eval.newScope outer
  bindAll scope params args
  return scope

end Params

end AnnotatedLisp
