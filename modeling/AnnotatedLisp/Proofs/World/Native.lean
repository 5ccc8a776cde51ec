import AnnotatedLisp.Native.Core
import AnnotatedLisp.Proofs.World.Binding

/-!
Native operations lead from world to world.

The values among converted arguments are arguments or items of arguments, and so is every value that a core
operation gives back, unless it is new.
-/

namespace AnnotatedLisp

open Eval

section Arguments

variable (w : World)

/-- The values among converted elements are known. -/
def Element.Known : (kind : Element) → List kind.Carrier → Prop
  | value, values => w.KnowsAll values
  | number, _ => True
  | string, _ => True

def Param.Known : (kind : Param) → kind.Carrier → Prop
  | value, v => w.Knows v
  | sequence element, items => element.Known w items
  | number, _ => True
  | boolean, _ => True
  | string, _ => True

/-- The values among converted arguments are known. -/
def Signature.Known : (fixed : List Param) → (rest : Option Element) → Carriers fixed rest → Prop
  | [], none, _ => True
  | [], some element, args => element.Known w args
  | param :: fixed, rest, args => param.Known w args.1 ∧ Known fixed rest args.2

end Arguments

namespace World

variable {w : World}

section Conversions

theorem grants_mapM {α : Type} {f : Value → Except Error α} (each : ∀ value, w.Grants Anything (f value))
    (values : List Value) : w.Grants Anything (values.mapM f) := by
  induction values with
  | nil => exact .ok trivial
  | cons value values ih =>
      rw [List.mapM_cons]
      exact (each value).bind fun _ _ => ih.bind fun _ _ => .ok trivial

theorem grants_element (kind : Element) (value : Value) :
    w.Grants Anything (kind.convert value) := by
  rw [Element.convert.eq_def]
  split
  · exact .ok trivial
  · exact .ok trivial
  · exact .error trivial
  · exact .ok trivial
  · exact .error trivial

theorem grants_elements (kind : Element) {values : List Value} (known : w.KnowsAll values) :
    w.Grants (fun v => kind.Known v) (kind.convertAll values) := by
  cases kind with
  | value => exact .ok known
  | number => exact grants_mapM (grants_element .number) values
  | string => exact grants_mapM (grants_element .string) values

theorem grants_param (kind : Param) {value : Value} (known : w.Knows value) :
    w.Grants (fun v => kind.Known v) (kind.convert value) := by
  cases kind with
  | value => exact .ok known
  | number => exact grants_element .number value
  | string => exact grants_element .string value
  | boolean =>
      cases value with
      | bool b => exact .ok trivial
      | _ => exact .error trivial
  | sequence element =>
      rw [Param.convert]
      split
      next items elements => exact grants_elements element (known.elements elements)
      next => exact .error trivial

theorem grants_convertArgs (fixed : List Param) (rest : Option Element) {args : List Value}
    (known : w.KnowsAll args) :
    w.Grants (fun v => Signature.Known v fixed rest) (Signature.convertArgs fixed rest args) := by
  induction fixed generalizing args with
  | nil =>
      cases rest with
      | none => exact .ok trivial
      | some element => exact grants_elements element known
  | cons param fixed ih =>
      cases args with
      | nil => cases rest <;> exact .error trivial
      | cons arg args =>
          obtain ⟨first, others⟩ := List.forall_mem_cons.1 known
          rw [Signature.convertArgs]
          refine (grants_param param first).bind fun _ fit => ?_
          exact (ih others).bind fun _ fits => Grants.ok ⟨fit, fits⟩

end Conversions

section Operations

open Operation

theorem grants_divideAll (x : Float) (ys : List Float) : w.Grants Anything (divideAll x ys) := by
  induction ys generalizing x with
  | nil => exact .ok trivial
  | cons y ys ih =>
      rw [divideAll]
      split
      · exact .error trivial
      · exact ih (x / y)

theorem grants_mapOf {items : List Value} (known : w.KnowsAll items) :
    w.Grants KnowsEntries (mapOf items) := by
  rw [mapOf]
  split
  · exact .error trivial
  · cases paired : Form.pairs items with
    | error key => exact .error trivial
    | ok entries =>
        exact .ok fun entry mem =>
          known entry.2 (Form.mem_of_pairs paired entry (Entries.mem_ofList mem)).2

theorem grants_concatenation {args : List Value} (known : w.KnowsAll args) :
    w.Grants KnowsAll (concatenation args) := by
  induction args with
  | nil => exact .ok knowsAll_nil
  | cons arg args ih =>
      obtain ⟨first, others⟩ := List.forall_mem_cons.1 known
      rw [concatenation]
      split
      next items elements =>
        refine (ih others).bind (f := fun rest => .ok (items ++ rest)) fun rest fits => ?_
        exact .ok (List.forall_mem_append.2 ⟨first.elements elements, fits⟩)
      next => exact .error trivial

theorem grants_item {items : List Value} (known : w.KnowsAll items) (index : Float) :
    w.Grants Knows (item items index) := by
  rw [item]
  split
  next value found =>
    obtain ⟨n, _, at_n⟩ := Option.bind_eq_some_iff.1 found
    exact .ok (known value (List.mem_of_getElem? at_n))
  next => exact .error trivial

theorem grants_size (value : Value) : w.Grants Anything (size value) := by
  rw [size.eq_def]
  split <;> first | exact .ok trivial | exact .error trivial

theorem knows_head? {items : List Value} (known : w.KnowsAll items) :
    w.Knows (items.head?.getD .nil) := by
  cases items with
  | nil => exact knows_nil
  | cons item items => exact known item List.mem_cons_self

theorem sustains_body (op : CoreOp) {args : op.operation.signature.Args}
    (known : Signature.Known w _ _ args) : w.Sustains Knows (op.operation.body args) := by
  have atom {form : Value} (unlabelled : form.identity? = none) (closed : form.scope? = none)
      (whole : form.parts = []) : w.Sustains Knows (pure form) :=
    sustains_pure (knows_of_atom unlabelled closed whole)
  cases op with
  | add | subtract | multiply | less | greater | lessEqual | greaterEqual | equal | not | isList
  | isVector | symbol | keyword | str => exact atom rfl rfl rfl
  | divide =>
      have quotient (x : Float) (xs : List Float) :
          w.Grants Anything (if xs.isEmpty then divideAll 1 [x] else divideAll x xs) := by
        split <;> exact grants_divideAll _ _
      exact (sustains_ofExcept (quotient _ _)).bind fun _ _ _ => sustains_pure (knows_of_atom rfl rfl rfl)
  | first => exact sustains_pure (knows_head? known.1)
  | list => exact sustains_newSeq .list known
  | vector => exact sustains_newSeq .vector known
  | cons => exact sustains_newSeq .list (List.forall_mem_cons.2 ⟨known.1, known.2.1⟩)
  | rest => exact sustains_newSeq .list fun item mem => known.1 item (List.mem_of_mem_tail mem)
  | hashMap =>
      exact (sustains_ofExcept (grants_mapOf known)).bind fun _ _ fits => sustains_newMap fits
  | concat =>
      exact (sustains_ofExcept (grants_concatenation known)).bind fun _ _ fits => sustains_newSeq .list fits
  | nth => exact sustains_ofExcept (grants_item known.1 _)
  | count | isEmpty =>
      exact (sustains_ofExcept (grants_size _)).bind
        fun _ _ _ => sustains_pure (knows_of_atom rfl rfl rfl)
  | throw => exact sustains_raise known.1

theorem sustains_operation {operation : Operation}
    (body : ∀ {v : World} (args : operation.signature.Args), Signature.Known v _ _ args →
      v.Sustains Knows (operation.body args))
    {args : List Value} (known : w.KnowsAll args) : w.Sustains Knows (operation.call args) := by
  refine (sustains_ofExcept (grants_arity operation.arity args.length)).bind fun _ later _ => ?_
  have known := KnowsAll.mono later known
  have converted : Grants _ (fun v => Signature.Known v _ _) (operation.signature.convert args) :=
    (grants_arity operation.signature.arity args.length).bind fun _ _ => grants_convertArgs _ _ known
  exact (sustains_ofExcept converted).bind fun args _ fits => body args fits

theorem sustains_core (op : CoreOp) {args : List Value} (known : w.KnowsAll args) :
    w.Sustains Knows (op.operation.call args) :=
  sustains_operation (fun _ => sustains_body op) known

end Operations

end World

end AnnotatedLisp
