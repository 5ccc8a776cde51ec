import AnnotatedLisp.Store.Eval

/-!
Typed native operations.

A signature lists the kinds of an operation's parameters, and the kind of the elements that its rest
parameter takes if it has one. Arguments are converted from left to right after their number was
checked, and the operation itself only ever sees converted arguments: the type of its body is computed
from its signature.
-/

namespace AnnotatedLisp

inductive Element where
  | value
  | number
  | string
  deriving DecidableEq

namespace Element

abbrev Carrier : Element → Type
  | value => Value
  | number => Float
  | string => String

def convert : (kind : Element) → Value → Except Error kind.Carrier
  | value, v => .ok v
  | number, .number x => .ok x
  | number, v => .error (.expected "number" v)
  | string, .string text => .ok text
  | string, v => .error (.expected "string" v)

/-- Converts elements in order, up to the first that cannot be converted. -/
def convertAll : (kind : Element) → List Value → Except Error (List kind.Carrier)
  | value, vs => .ok vs
  | number, vs => vs.mapM (convert number)
  | string, vs => vs.mapM (convert string)

end Element

inductive Param where
  | value
  | number
  | boolean
  | string
  | sequence (element : Element)
  deriving DecidableEq

namespace Param

abbrev Carrier : Param → Type
  | value => Value
  | number => Float
  | boolean => Bool
  | string => String
  | sequence element => List element.Carrier

/-- Converts an argument. A sequence is a list, a vector or `nil`. -/
def convert : (kind : Param) → Value → Except Error kind.Carrier
  | value, v => .ok v
  | number, v => Element.number.convert v
  | boolean, .bool b => .ok b
  | boolean, v => .error (.expected "boolean" v)
  | string, v => Element.string.convert v
  | sequence element, v =>
    match v.elements? with
    | some items => element.convertAll items
    | none => .error (.expected "list or vector" v)

end Param

structure Signature where
  fixed : List Param
  rest : Option Element
  deriving DecidableEq

namespace Signature

def arity : Signature → Arity
  | ⟨fixed, none⟩ => .exact fixed.length
  | ⟨fixed, some _⟩ => .atLeast fixed.length

abbrev Carriers : List Param → Option Element → Type
  | [], none => Unit
  | [], some element => List element.Carrier
  | param :: fixed, rest => param.Carrier × Carriers fixed rest

/-- Converts arguments, as many as there are parameters. -/
def convertArgs : (fixed : List Param) → (rest : Option Element) → List Value →
    Except Error (Carriers fixed rest)
  | [], none, _ => .ok ()
  | [], some element, args => element.convertAll args
  | param :: fixed, rest, arg :: args => do
    let first ← param.convert arg
    return (first, ← convertArgs fixed rest args)
  | _ :: fixed, none, [] => .error (.arityMismatch (.exact (fixed.length + 1)) 0)
  | _ :: fixed, some _, [] => .error (.arityMismatch (.atLeast (fixed.length + 1)) 0)

abbrev Args (signature : Signature) : Type :=
  Carriers signature.fixed signature.rest

/-- Checks the number of the arguments, then converts them. -/
def convert (signature : Signature) (args : List Value) : Except Error signature.Args := do
  signature.arity.check args.length
  convertArgs signature.fixed signature.rest args

end Signature

/-- A native operation: the arity it was registered with, its parameters and its body. -/
structure Operation where
  arity : Arity
  signature : Signature
  body : signature.Args → Eval Value

namespace Operation

def fixed (params : List Param) (body : Signature.Carriers params none → Eval Value) : Operation :=
  ⟨.exact params.length, ⟨params, none⟩, body⟩

def variadic (arity : Arity) (params : List Param) (rest : Element)
    (body : Signature.Carriers params (some rest) → Eval Value) : Operation :=
  ⟨arity, ⟨params, some rest⟩, body⟩

def call (operation : Operation) (args : List Value) : Eval Value := do
  Eval.ofExcept (operation.arity.check args.length)
  operation.body (← Eval.ofExcept (operation.signature.convert args))

end Operation

end AnnotatedLisp
