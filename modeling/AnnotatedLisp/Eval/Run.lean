import AnnotatedLisp.Eval.Expansion
import AnnotatedLisp.Eval.Step
import AnnotatedLisp.Native.Core

/-!
Evaluation and macro expansion.

Steps are taken until there is a value. A program may take any number of them, but can nest only as many
levels as its limit says. Every list that was passed through on the way to a value is stamped with it
once it is there.

The number of steps is bounded by an explicit amount of fuel. It only serves to make evaluation a total
function: running out of it is no error that a program could see.
-/

namespace AnnotatedLisp

namespace Run

/-- How many levels share one call stack. -/
def levelsPerStack : Nat := 1000

/-- Evaluates at a level, if the limit allows it. -/
def enterWith (loop : Context → List NodeId → Value → ScopeId → Eval Value)
    (ctx : Context) (form : Value) (scope : ScopeId) : Eval Value :=
  if ctx.limit ≤ ctx.depth then Eval.raise (.depthExceeded ctx.limit)
  else if (ctx.depth + 1) % levelsPerStack = 0 then
    Eval.onFreshStack (loop ctx [] form scope)
  else loop ctx [] form scope

/-- Applies a native operation, with what it needs to evaluate forms on its own. -/
def applyWith (host : Host) (loop : Context → List NodeId → Value → ScopeId → Eval Value)
    (operation : Native) (args : List Value) : Eval Value :=
  match operation with
  | .core op => op.operation.call args
  | .host name scope =>
    host.call (fun form scope => Eval.onFreshStack (enterWith loop (.top false) form scope))
      name scope args

/-- The evaluator that nests evaluations by a given loop and expands at most `fuel` times. -/
def evaluator (host : Host) (fuel : Nat)
    (loop : Context → List NodeId → Value → ScopeId → Eval Value) : Evaluator where
  enter := enterWith loop
  expand := fun ctx form scope => Expansion.run (enterWith loop) ctx scope fuel form
  apply := applyWith host loop

def visit (form : Value) (visited : List NodeId) : List NodeId :=
  match form with
  | .seq node .list _ => node :: visited
  | _ => visited

/-- Stamps nodes with the value that they led to. -/
def stampAll (ctx : Context) (visited : List NodeId) (value : Value) : Eval Unit :=
  visited.forM fun node => ctx.stamp node fun stamps => { stamps with evaluated := some value }

/-- Takes steps until there is a value, at most `fuel` of them. -/
def loop (host : Host) : Nat → Context → List NodeId → Value → ScopeId → Eval Value
  | 0, _, _, _, _ => Eval.exhausted
  | fuel + 1, ctx, visited, form, scope => do
    let ev := evaluator host fuel (loop host fuel)
    let expanded ← ev.resolve ctx scope form
    let visited := if ctx.annotate then visit expanded (visit form visited) else []
    match ← ev.step ctx scope expanded with
    | .done value =>
      stampAll ctx visited value
      return value
    | .tail next inner => loop host fuel ctx visited next inner

end Run

def evaluate (host : Host) (fuel : Nat) (ctx : Context) (form : Value) (scope : ScopeId) :
    Eval Value :=
  Run.enterWith (Run.loop host fuel) ctx form scope

/-- Expands a form in a scope until it is no macro call. -/
def macroexpand (host : Host) (fuel : Nat) (ctx : Context) (form : Value) (scope : ScopeId) :
    Eval Value :=
  Expansion.run (Run.enterWith (Run.loop host fuel)) ctx scope fuel form

def applyNative (host : Host) (fuel : Nat) (operation : Native) (args : List Value) : Eval Value :=
  Run.applyWith host (Run.loop host fuel) operation args

end AnnotatedLisp
