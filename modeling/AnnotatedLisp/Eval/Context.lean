import AnnotatedLisp.Store.Binding

/-!
What one evaluation is given, and what it may ask for.

Evaluation alternates between small steps and evaluations nested in them. A step is written against an
`Evaluator`, which is what it may call; this keeps every step free of recursion.
-/

namespace AnnotatedLisp

/-- Whether stamps are made, how many levels of evaluations may be nested, and how many are. -/
structure Context where
  annotate : Bool
  limit : Nat
  depth : Nat

namespace Context

/-- The number of levels that are allowed unless told otherwise. -/
def defaultLimit : Nat := 10000

/-- An evaluation that is not nested in another, with a limit of its own. -/
def within (annotate : Bool) (limit : Nat) : Context :=
  ⟨annotate, limit, 0⟩

def top (annotate : Bool) : Context :=
  within annotate defaultLimit

def nested (ctx : Context) : Context :=
  { ctx with depth := ctx.depth + 1 }

end Context

/-- How far a step has come: to a value, or to a form whose value is the value asked for. -/
inductive Step where
  | done (value : Value)
  | tail (form : Value) (scope : ScopeId)

/-- What a step may call: a nested evaluation, the expansion of macro calls, and a native operation. -/
structure Evaluator where
  enter : Context → Value → ScopeId → Eval Value
  expand : Context → Value → ScopeId → Eval Value
  apply : Native → List Value → Eval Value

/-- What the host of a program provides: the operations that it has registered, found by their names
and the scopes they are registered in. They can evaluate forms, starting a new count of levels. -/
structure Host where
  call : (evaluate : Value → ScopeId → Eval Value) → (name : String) → (scope : ScopeId) →
    List Value → Eval Value

/-- A host that provides nothing. -/
def Host.none : Host :=
  ⟨fun _ name _ _ => Eval.raise (.unboundSymbol name)⟩

/-- Records something at a node if stamps are made. -/
def Context.stamp (ctx : Context) (node : NodeId) (change : Stamps → Stamps) : Eval Unit :=
  if ctx.annotate then Eval.stamp node change else return

/-- Records something at a form that is a list, a vector or a map, if stamps are made. -/
def Context.stampForm (ctx : Context) (form : Value) (change : Stamps → Stamps) : Eval Unit :=
  match form.nodeLabel? with
  | some node => ctx.stamp node change
  | .none => return

end AnnotatedLisp
