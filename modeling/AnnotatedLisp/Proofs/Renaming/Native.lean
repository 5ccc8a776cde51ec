import AnnotatedLisp.Native.Core
import AnnotatedLisp.Proofs.Renaming.Binding

/-!
Native operations under a renaming of nodes.

Numbers and texts have no nodes. What is converted into them is the same in both runs, and what remains a
value is renamed.
-/

namespace AnnotatedLisp

open Eval

section Arguments

variable (g : Value → Value)

/-- Converted elements with their values changed. -/
def Element.renameAll : (kind : Element) → List kind.Carrier → List kind.Carrier
  | value, vs => vs.map g
  | number, xs => xs
  | string, texts => texts

def Param.rename : (kind : Param) → kind.Carrier → kind.Carrier
  | value, v => g v
  | number, x => x
  | boolean, b => b
  | string, text => text
  | sequence element, vs => element.renameAll g vs

/-- Converted arguments with their values changed. -/
def Signature.rename : (fixed : List Param) → (rest : Option Element) → Carriers fixed rest →
    Carriers fixed rest
  | [], none, args => args
  | [], some element, args => element.renameAll g args
  | param :: fixed, rest, args => (param.rename g args.1, rename fixed rest args.2)

end Arguments

namespace Renaming

variable {r : Renaming} {α β γ δ : Type} {f : α → β} {g : γ → δ}

section Results

theorem result_bind {x : Except Error α} {y : Except Error β} {k : α → Except Error γ}
    {l : β → Except Error δ} (first : y = r.result f x) (rest : ∀ a, l (f a) = r.result g (k a)) :
    y >>= l = r.result g (x >>= k) := by
  subst first
  cases x with
  | ok a => exact rest a
  | error error => rfl

theorem result_map {x : Except Error α} {y : Except Error β} {k : α → γ} {l : β → δ}
    (first : y = r.result f x) (rest : ∀ a, l (f a) = g (k a)) :
    y.map l = r.result g (x.map k) := by
  subst first
  cases x with
  | ok a => exact congrArg Except.ok (rest a)
  | error error => rfl

/-- Values converted one by one into what has no nodes. -/
theorem result_mapM {k : Value → Except Error α} (each : ∀ v, k (r.value v) = r.result id (k v))
    (values : List Value) : (values.map r.value).mapM k = r.result id (values.mapM k) := by
  induction values with
  | nil => rfl
  | cons first rest ih =>
      rw [List.map_cons, List.mapM_cons, List.mapM_cons]
      exact result_bind (each first) fun _ => result_bind ih fun _ => rfl

end Results

section Conversions

theorem expected_value (what : String) (value : Value) :
    Error.expected what (r.value value) = Error.expected what value := by
  rw [Error.expected, Error.expected, Form.text_relabel]

theorem convert_number (value : Value) :
    Element.number.convert (r.value value) = r.result id (Element.number.convert value) := by
  cases value with
  | number x => rfl
  | _ => exact congrArg Except.error (expected_value "number" _)

theorem convert_string (value : Value) :
    Element.string.convert (r.value value) = r.result id (Element.string.convert value) := by
  cases value with
  | string text => rfl
  | _ => exact congrArg Except.error (expected_value "string" _)

theorem convertAll_value (kind : Element) (values : List Value) :
    kind.convertAll (values.map r.value) = r.result (kind.renameAll r.value) (kind.convertAll values) := by
  cases kind with
  | value => rfl
  | number => exact result_mapM convert_number values
  | string => exact result_mapM convert_string values

theorem convert_value (kind : Param) (value : Value) :
    kind.convert (r.value value) = r.result (kind.rename r.value) (kind.convert value) := by
  cases kind with
  | value => rfl
  | number => exact convert_number value
  | string => exact convert_string value
  | boolean =>
      cases value with
      | bool b => rfl
      | _ => exact congrArg Except.error (expected_value "boolean" _)
  | sequence element =>
      rw [Param.convert, Param.convert, Form.elements?_relabel]
      cases value.elements? with
      | some items => exact convertAll_value element items
      | none => exact congrArg Except.error (expected_value "list or vector" value)

theorem convertArgs_value (fixed : List Param) (rest : Option Element) (args : List Value) :
    Signature.convertArgs fixed rest (args.map r.value) =
      r.result (Signature.rename r.value fixed rest) (Signature.convertArgs fixed rest args) := by
  induction fixed generalizing args with
  | nil =>
      cases rest with
      | none => rfl
      | some element => exact convertAll_value element args
  | cons param fixed ih =>
      cases args with
      | nil => cases rest <;> rfl
      | cons arg args =>
          rw [List.map_cons, Signature.convertArgs, Signature.convertArgs]
          exact result_bind (convert_value param arg) fun _ => result_bind (ih args) fun _ => rfl

theorem convertAll_args (signature : Signature) (args : List Value) :
    signature.convert (args.map r.value) =
      r.result (Signature.rename r.value signature.fixed signature.rest) (signature.convert args) :=
  result_bind (check_arity signature.arity args) fun _ => convertArgs_value _ _ args

end Conversions

section Operations

open Operation

/-- Renamed values are equal exactly if the values are. -/
theorem beq_value (a b : Value) : (r.value a == r.value b) = (a == b) := by
  refine Form.equal_relabel (fun m n => ?_) a b
  rw [Bool.eq_iff_iff, beq_iff_eq, beq_iff_eq]
  exact r.injective.eq_iff

theorem chain_value (value : Value) (values : List Value) :
    chain (· == ·) (r.value value) (values.map r.value) = chain (· == ·) value values := by
  induction values generalizing value with
  | nil => rfl
  | cons next values ih => rw [List.map_cons, chain, chain, beq_value, ih]

theorem divideAll_value (x : Float) (ys : List Float) :
    divideAll x ys = r.result id (divideAll x ys) := by
  induction ys generalizing x with
  | nil => rfl
  | cons y ys ih =>
      rw [divideAll]
      split
      · rfl
      · exact ih (x / y)

theorem mapOf_value (items : List Value) :
    mapOf (items.map r.value) = r.result (List.map (Prod.map id r.value)) (mapOf items) := by
  rw [mapOf, mapOf, List.length_map, Form.pairs_relabel]
  split
  · rfl
  · cases Form.pairs items with
    | ok entries => exact congrArg Except.ok (Entries.ofList_map r.value entries)
    | error key =>
        refine congrArg Except.error ?_
        rw [Error.badKey, Error.badKey, Form.text_relabel]
        rfl

theorem concatenation_value (args : List Value) :
    concatenation (args.map r.value) = r.result (List.map r.value) (concatenation args) := by
  induction args with
  | nil => rfl
  | cons arg args ih =>
      rw [List.map_cons, concatenation, concatenation, Form.elements?_relabel]
      cases arg.elements? with
      | some items => exact result_map ih fun rest => List.map_append.symm
      | none =>
          rw [Option.map_none, Form.text_relabel]
          rfl

theorem item_value (items : List Value) (index : Float) :
    item (items.map r.value) index = r.result r.value (item items index) := by
  have found : ((Number.toNat? index).bind fun n => (items.map r.value)[n]?) =
      ((Number.toNat? index).bind fun n => items[n]?).map r.value := by
    cases Number.toNat? index with
    | none => rfl
    | some n => exact List.getElem?_map
  rw [item, item, found, List.length_map]
  cases (Number.toNat? index).bind fun n => items[n]? <;> rfl

theorem size_value (value : Value) : size (r.value value) = r.result id (size value) := by
  cases value with
  | nil | string _ => rfl
  | seq label kind items =>
      rw [Renaming.value, Form.relabel_seq, size, size, List.length_map]
      rfl
  | map label entries =>
      rw [Renaming.value, Form.relabel_map, size, size, List.length_map]
      rfl
  | _ =>
      refine congrArg Except.error (congrArg (fun text => Error.typeError (_ ++ text)) ?_)
      exact Form.text_relabel _ _

theorem joined_value (values : List Value) : joined (values.map r.value) = joined values := by
  rw [joined, joined, List.foldl_map]
  congr
  funext out value
  cases value with
  | string _ | nil => rfl
  | _ => exact congrArg (out ++ ·) (Form.text_relabel _ _)

theorem head?_value (items : List Value) :
    (items.map r.value).head?.getD .nil = r.value (items.head?.getD .nil) := by
  cases items <;> rfl

theorem carries_tail (items : List Value) :
    r.Carries r.value (newList items.tail) (newList (items.map r.value).tail) := by
  rw [← List.map_tail]
  exact carries_newSeq .list items.tail

theorem carries_body (op : CoreOp) (args : op.operation.signature.Args) :
    r.Carries r.value (op.operation.body args)
      (op.operation.body (Signature.rename r.value _ _ args)) := by
  cases op with
  | add | subtract | multiply | less | greater | lessEqual | greaterEqual | symbol | keyword =>
      exact carries_pure rfl
  | divide =>
      have quotient (x : Float) (xs : List Float) :
          (if xs.isEmpty then divideAll 1 [x] else divideAll x xs) =
            r.result id (if xs.isEmpty then divideAll 1 [x] else divideAll x xs) := by
        split <;> exact divideAll_value _ _
      exact (carries_ofExcept (quotient _ _)).bind fun _ => carries_pure rfl
  | equal => exact carries_pure (congrArg Form.bool (chain_value _ _))
  | not => exact carries_pure (congrArg (fun b => Form.bool !b) (Form.isTruthy_relabel r.rename _))
  | isList => exact carries_pure (congrArg Form.bool (Form.isList_relabel r.rename _))
  | isVector => exact carries_pure (congrArg Form.bool (Form.isVector_relabel r.rename _))
  | str => exact carries_pure (congrArg Form.string (joined_value _))
  | first => exact carries_pure (head?_value _)
  | list => exact carries_newSeq .list _
  | vector => exact carries_newSeq .vector _
  | cons => exact carries_newSeq .list (_ :: _)
  | rest => exact carries_tail _
  | hashMap =>
      exact (carries_ofExcept (mapOf_value _)).bind fun entries => carries_newMap entries
  | concat =>
      exact (carries_ofExcept (concatenation_value _)).bind fun items => carries_newSeq .list items
  | nth => exact carries_ofExcept (item_value _ _)
  | count => exact (carries_ofExcept (size_value _)).bind fun _ => carries_pure rfl
  | isEmpty => exact (carries_ofExcept (size_value _)).bind fun _ => carries_pure rfl
  | throw => exact carries_raise (.thrown _)

theorem carries_core (op : CoreOp) (args : List Value) :
    r.Carries r.value (op.operation.call args) (op.operation.call (args.map r.value)) :=
  (carries_ofExcept (check_arity op.operation.arity args)).bind fun _ =>
    (carries_ofExcept (convertAll_args op.operation.signature args)).bind fun converted =>
      carries_body op converted

end Operations

end Renaming

end AnnotatedLisp
