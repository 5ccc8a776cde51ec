import AnnotatedLisp.Store.Basic

/-!
Computations on the store.

A computation ends in a result or stops; what it did to the store before it stopped stays done. It
stops with an error, which a program can catch, or because the number of steps it was granted is used
up, which a program cannot catch.
-/

namespace AnnotatedLisp

/-- Why a computation has no result. -/
inductive Stop where
  | error (error : Error)
  | exhausted

/-- A computation on the store. -/
abbrev Eval := EStateM Stop Store

namespace Eval

def raise {α : Type} (error : Error) : Eval α :=
  throw (.error error)

/-- Stops because no step is left. -/
def exhausted {α : Type} : Eval α :=
  throw .exhausted

def ofExcept {α : Type} : Except Error α → Eval α
  | .ok a => pure a
  | .error error => raise error

/-- Catches an error, with the store as it was left. -/
def attempt {α : Type} (x : Eval α) : Eval (Except Error α) := fun s =>
  match x s with
  | .ok a s => .ok (.ok a) s
  | .error (.error error) s => .ok (.error error) s
  | .error .exhausted s => .error .exhausted s

/-- A computation on a call stack of its own. Only the room for nested calls differs. -/
def onFreshStack {α : Type} (x : Eval α) : Eval α := fun s =>
  (Task.spawn (fun _ => x s) .dedicated).get

theorem onFreshStack_eq {α : Type} (x : Eval α) : onFreshStack x = x := rfl

def newNode : Eval NodeId :=
  modifyGet fun s => (s.nextNode, { s with nextNode := s.nextNode + 1 })

def newSeq (kind : SeqKind) (items : List Value) : Eval Value :=
  return .seq (← newNode) kind items

def newList (items : List Value) : Eval Value :=
  newSeq .list items

def newMap (entries : List (MapKey × Value)) : Eval Value :=
  return .map (← newNode) entries

def newScope (outer : ScopeId) : Eval ScopeId :=
  modifyGet fun s => s.addScope (some outer)

def define (scope : ScopeId) (name : String) (value : Value) : Eval Unit :=
  modify fun s => s.define scope name value

def lookup? (scope : ScopeId) (name : String) : Eval (Option Value) :=
  return (← get).lookup name scope

def lookup (scope : ScopeId) (name : String) : Eval Value := do
  match ← lookup? scope name with
  | some value => return value
  | none => raise (.unboundSymbol name)

def stamp (node : NodeId) (change : Stamps → Stamps) : Eval Unit :=
  modify fun s => s.stamp node change

def say (text : String) : Eval Unit :=
  modify fun s => { s with output := s.output ++ text }

mutual

/-- A value with the contents of a datum and nodes of its own. -/
def load : Datum → Eval Value
  | .nil => return .nil
  | .bool value => return .bool value
  | .number value => return .number value
  | .string text => return .string text
  | .keyword name => return .keyword name
  | .symbol name => return .symbol name
  | .seq _ kind items => do newSeq kind (← loadItems items)
  | .map _ entries => do newMap (← loadEntries entries)
  | .native operation => return .native operation
  | .fn _ params body scope isMacro => do
    let params ← load params
    let body ← load body
    return .fn (← newNode) params body scope isMacro

def loadItems : List Datum → Eval (List Value)
  | [] => return []
  | item :: items => do
    let item ← load item
    return item :: (← loadItems items)

def loadEntries : List (MapKey × Datum) → Eval (List (MapKey × Value))
  | [] => return []
  | (key, value) :: entries => do
    let value ← load value
    return (key, value) :: (← loadEntries entries)

end

end Eval

end AnnotatedLisp
