import AnnotatedLisp.Eval.Context
import AnnotatedLisp.Eval.Template

/-!
The special forms: lists that are evaluated by rules of their own, told by the name at their head.
-/

namespace AnnotatedLisp

inductive Special where
  | define
  | letIn
  | quote
  | quasiquote
  | makeMacro
  | macroexpand
  | attempt
  | sequence
  | conditional
  | makeFn
  | evalWhenExecute
  deriving DecidableEq

namespace Special

def ofName? : String → Option Special
  | "def" => some define
  | "let" => some letIn
  | "quote" => some quote
  | "quasiquote" => some quasiquote
  | "macro" => some makeMacro
  | "macroexpand" => some macroexpand
  | "try" => some attempt
  | "do" => some sequence
  | "if" => some conditional
  | "fn" => some makeFn
  | "eval-when-execute" => some evalWhenExecute
  | _ => none

def ofHead? : Value → Option Special
  | .symbol name => ofName? name
  | _ => none

/-- The one form for the forms of a body: a single one stands for itself, several make a `do`. -/
def bodyForm : List Value → Eval Value
  | [] => return .nil
  | [form] => return form
  | forms => Eval.newList (.symbol "do" :: forms)

/-- Refuses parameters that nothing can be bound to. -/
def checkParams (form : String) : Value → Eval Unit
  | .symbol _ | .seq _ _ _ => return
  | _ => Eval.raise (.malformed form "a parameter vector or symbol")

/-- The name and the handler of a `catch` clause. A list that is neither headed by `catch` nor empty,
and anything that is not a list, is no clause. -/
def catchClause? : Value → Except Error (Option (String × Value))
  | .seq _ .list items =>
    match items with
    | [] => .error malformedCatch
    | head :: rest =>
      if head.isSymbol "catch" then
        match rest with
        | [.symbol name, handler] => .ok (some (name, handler))
        | _ => .error malformedCatch
      else .ok none
  | _ => .ok none
where
  malformedCatch : Error := .malformed "catch" "a symbol and a handler"

section Rules

variable (ev : Evaluator) (ctx : Context) (scope : ScopeId)

/-- `(def name form)` binds the name in the current scope. -/
def runDef : List Value → Eval Step
  | [.symbol name, form] => do
    let value ← ev.enter ctx.nested form scope
    Eval.define scope name value
    return .done value
  | _ => Eval.raise (.malformed "def" "a symbol and an expression")

/-- Evaluates and binds the pairs of a `let` one after the other, all in its scope. -/
def bindPairs : List Value → Eval Unit
  | param :: form :: rest => do
    let value ← ev.enter ctx.nested form scope
    Params.bind scope param value
    bindPairs rest
  | _ => return

/-- `(let [param form …] body …)` evaluates the body in a scope of its own. -/
def runLet : List Value → Eval Step
  | .seq _ _ bindings :: body => do
    if bindings.length % 2 = 1 then
      Eval.raise (.malformed "let" "an even number of binding forms")
    else do
      let inner ← Eval.newScope scope
      bindPairs ev ctx inner bindings
      match body with
      | [] => return .done .nil
      | body => return .tail (← bodyForm body) inner
  | _ => Eval.raise (.malformed "let" "a binding vector")

/-- `(quote form)` is the form. -/
def runQuote : List Value → Eval Step
  | [form] => return .done form
  | _ => Eval.raise (.malformed "quote" "exactly one form")

/-- `(quasiquote template)` is the form that builds what the template describes. -/
def runQuasiquote : List Value → Eval Step
  | [template] => return .tail (← Template.builder template) scope
  | _ => Eval.raise (.malformed "quasiquote" "exactly one form")

def newMacro (params body : Value) : Eval Value := do
  checkParams "macro" params
  return .fn (← Eval.newNode) params body scope true

/-- `(macro params body)` is a macro; with a name in front it is also bound to the name. -/
def runMacro : List Value → Eval Step
  | [params, body] => return .done (← newMacro scope params body)
  | [.symbol name, params, body] => do
    let value ← newMacro scope params body
    Eval.define scope name value
    return .done value
  | _ => Eval.raise (.malformed "macro" "a parameter vector and a body")

/-- `(macroexpand form)` is what the form expands into, not evaluated. -/
def runMacroexpand : List Value → Eval Step
  | [form] => return .done (← ev.expand ctx.nested form scope)
  | _ => Eval.raise (.malformed "macroexpand" "exactly one form")

/-- Evaluates the body of a `try`. Only when it fails is the clause looked at: a `catch` clause handles
the error in a scope of its own, without one the error goes on. -/
def runTryBody (body : Value) (clause : Option Value) : Eval Step := do
  match ← Eval.attempt (ev.enter ctx.nested body scope) with
  | .ok value => return .done value
  | .error error =>
    match ← Eval.ofExcept ((clause.map catchClause?).getD (.ok none)) with
    | none => Eval.raise error
    | some (name, handler) =>
      let inner ← Eval.newScope scope
      Eval.define inner name error.caught
      return .tail handler inner

def runTry : List Value → Eval Step
  | [body] => runTryBody ev ctx scope body none
  | [body, clause] => runTryBody ev ctx scope body (some clause)
  | _ => Eval.raise (.malformed "try" "a body and an optional catch clause")

/-- `(do form …)` evaluates all forms and has the value of the last. -/
def runDo : List Value → Eval Step
  | [] => return .done .nil
  | [form] => return .tail form scope
  | form :: forms => do
    let _ ← ev.enter ctx.nested form scope
    runDo forms

/-- Evaluates a condition and goes on with the form that it chooses. -/
def choose (condition yes : Value) (no : Option Value) : Eval Step := do
  if (← ev.enter ctx.nested condition scope).isTruthy then return .tail yes scope
  else match no with
    | some no => return .tail no scope
    | none => return .done .nil

def runIf : List Value → Eval Step
  | [condition, yes] => choose ev ctx scope condition yes none
  | [condition, yes, no] => choose ev ctx scope condition yes (some no)
  | _ => Eval.raise (.malformed "if" "a condition, a branch and an optional else branch")

/-- `(fn params body …)` is a function of the current scope. -/
def runFn : List Value → Eval Step
  | params :: form :: forms => do
    checkParams "fn" params
    let body ← bodyForm (form :: forms)
    return .done (.fn (← Eval.newNode) params body scope false)
  | _ => Eval.raise (.malformed "fn" "a parameter vector and a body")

/-- `(eval-when-execute form)` evaluates the form, and then its value. -/
def runEvalWhenExecute : List Value → Eval Step
  | [form] => return .tail (← ev.enter ctx.nested form scope) scope
  | _ => Eval.raise (.malformed "eval-when-execute" "exactly one form")

def run : Special → List Value → Eval Step
  | define => runDef ev ctx scope
  | letIn => runLet ev ctx scope
  | quote => runQuote
  | quasiquote => runQuasiquote scope
  | makeMacro => runMacro scope
  | macroexpand => runMacroexpand ev ctx scope
  | attempt => runTry ev ctx scope
  | sequence => runDo ev ctx scope
  | conditional => runIf ev ctx scope
  | makeFn => runFn scope
  | evalWhenExecute => runEvalWhenExecute ev ctx scope

end Rules

end Special

end AnnotatedLisp
