import AnnotatedLisp.Form.Equality
import AnnotatedLisp.Native.Signature

/-!
The core operations: arithmetic, comparison, the making and taking apart of sequences and maps, names,
text, and `throw`.
-/

namespace AnnotatedLisp

namespace Operation

/-- Whether a relation holds between every two neighbours. -/
def chain {α : Type} (related : α → α → Bool) : α → List α → Bool
  | _, [] => true
  | a, b :: rest => related a b && chain related b rest

def divideAll : Float → List Float → Except Error Float
  | x, [] => .ok x
  | x, y :: ys => if y == 0 then .error (.evalError "Division by zero") else divideAll (x / y) ys

/-- The map of keys and values given in turn, a later value of a key replacing an earlier one. -/
def mapOf (items : List Value) : Except Error (List (MapKey × Value)) :=
  if items.length % 2 = 1 then
    .error (.evalError "hash-map requires an even number of arguments")
  else match Form.pairs items with
    | .ok entries => .ok (Entries.ofList entries)
    | .error key => .error (.badKey key)

def concatenation : List Value → Except Error (List Value)
  | [] => .ok []
  | arg :: args =>
    match arg.elements? with
    | some items => (concatenation args).map fun rest => items ++ rest
    | none => .error (.typeError ("concat requires lists or vectors, got " ++ arg.text))

def item (items : List Value) (index : Float) : Except Error Value :=
  match (Number.toNat? index).bind fun n => items[n]? with
  | some item => .ok item
  | none =>
    .error (.evalError ("nth: index " ++ Number.text index ++
      " out of range for sequence of length " ++ toString items.length))

/-- The number of items of a sequence, entries of a map or characters of a string. -/
def size : Value → Except Error Nat
  | .nil => .ok 0
  | .seq _ _ items => .ok items.length
  | .map _ entries => .ok entries.length
  | .string text => .ok text.length
  | value => .error (.typeError ("count requires a collection, got " ++ value.text))

/-- The text of values one after the other: strings as they are, and nothing for `nil`. -/
def joined (values : List Value) : String :=
  values.foldl (fun out value =>
    match value with
    | .string text => out ++ text
    | .nil => out
    | value => out ++ value.text) ""

end Operation

namespace CoreOp

open Operation (chain divideAll mapOf concatenation item size joined)

/-- What each operation does. A sum starts from negative zero, so that it does not hide the sign of a
sum of negative zeros; a product starts from one. -/
def operation : CoreOp → Operation
  | add => .variadic .any [] .number fun xs => return .number (xs.foldl (· + ·) (-0.0))
  | subtract => .variadic (.atLeast 1) [.number] .number fun (x, xs) =>
    return .number (if xs.isEmpty then -x else xs.foldl (· - ·) x)
  | multiply => .variadic .any [] .number fun xs => return .number (xs.foldl (· * ·) 1)
  | divide => .variadic (.atLeast 1) [.number] .number fun (x, xs) => do
    return .number (← Eval.ofExcept (if xs.isEmpty then divideAll 1 [x] else divideAll x xs))
  | equal => .variadic (.atLeast 1) [.value] .value fun (x, xs) => return .bool (chain (· == ·) x xs)
  | less => .variadic (.atLeast 1) [.number] .number fun (x, xs) =>
    return .bool (chain (· < ·) x xs)
  | greater => .variadic (.atLeast 1) [.number] .number fun (x, xs) =>
    return .bool (chain (· > ·) x xs)
  | lessEqual => .variadic (.atLeast 1) [.number] .number fun (x, xs) =>
    return .bool (chain (· ≤ ·) x xs)
  | greaterEqual => .variadic (.atLeast 1) [.number] .number fun (x, xs) =>
    return .bool (chain (· ≥ ·) x xs)
  | not => .fixed [.value] fun (value, _) => return .bool (!value.isTruthy)
  | list => .variadic .any [] .value Eval.newList
  | vector => .variadic .any [] .value (Eval.newSeq .vector)
  | hashMap => .variadic .any [] .value fun items => do
    Eval.newMap (← Eval.ofExcept (mapOf items))
  | cons => .fixed [.value, .sequence .value] fun (head, tail, _) => Eval.newList (head :: tail)
  | concat => .variadic .any [] .value fun args => do
    Eval.newList (← Eval.ofExcept (concatenation args))
  | first => .fixed [.sequence .value] fun (items, _) => return items.head?.getD .nil
  | rest => .fixed [.sequence .value] fun (items, _) => Eval.newList items.tail
  | nth => .fixed [.sequence .value, .number] fun (items, index, _) =>
    Eval.ofExcept (item items index)
  | count => .fixed [.value] fun (value, _) => do
    return .number (Float.ofNat (← Eval.ofExcept (size value)))
  | isEmpty => .fixed [.value] fun (value, _) => do
    return .bool ((← Eval.ofExcept (size value)) == 0)
  | isList => .fixed [.value] fun (value, _) => return .bool value.isList
  | isVector => .fixed [.value] fun (value, _) => return .bool value.isVector
  | symbol => .fixed [.string] fun (name, _) => return .symbol name
  | keyword => .fixed [.string] fun (name, _) => return .keyword name
  | str => .variadic .any [] .value fun values => return .string (joined values)
  | throw => .fixed [.value] fun (value, _) => Eval.raise (.thrown value)

def description (op : CoreOp) : String :=
  "BuiltinOp \x7b id: " ++ describeQuoted op.name ++ ", arity: " ++ op.operation.arity.description ++
    ", .. \x7d"

end CoreOp

/-- Adds the global scope, in which every core operation is bound to its name. -/
def Eval.newGlobalScope : Eval ScopeId := do
  let scope ← modifyGet fun s => s.addScope none
  CoreOp.all.forM fun op => Eval.define scope op.name (.native (.core op))
  return scope

end AnnotatedLisp
