import AnnotatedLisp.Eval.Special
import AnnotatedLisp.Native.Core

/-!
Only evaluation refuses to go deeper.

The checks of arguments and parameters, the conversions of native operations and the core operations
themselves fail for many reasons, but never because a limit of depth is reached.
-/

namespace AnnotatedLisp

/-- Whether an error is the refusal of an evaluation that is nested too deeply. -/
def Error.isRefusal : Error → Bool
  | depthExceeded _ => true
  | _ => false

/-- A result that is no refusal. -/
def Unrefused {α : Type} (result : Except Error α) : Prop :=
  ∀ error, result = .error error → error.isRefusal = false

section Rules

variable {α β : Type}

theorem unrefused_ok (a : α) : Unrefused (.ok a) := by
  intro error h
  cases h

theorem unrefused_error {error : Error} (shallow : error.isRefusal = false) :
    Unrefused (.error error : Except Error α) := by
  intro _ h
  cases h
  exact shallow

theorem Unrefused.bind {x : Except Error α} {f : α → Except Error β} (first : Unrefused x)
    (rest : ∀ a, Unrefused (f a)) : Unrefused (x >>= f) := by
  cases x with
  | ok a => exact rest a
  | error e => exact unrefused_error (first e rfl)

theorem Unrefused.map {x : Except Error α} (h : Unrefused x) (f : α → β) : Unrefused (x.map f) := by
  cases x with
  | ok a => exact unrefused_ok (f a)
  | error e => exact unrefused_error (h e rfl)

theorem unrefused_mapM {f : α → Except Error β} (each : ∀ a, Unrefused (f a)) (items : List α) :
    Unrefused (items.mapM f) := by
  induction items with
  | nil => exact unrefused_ok []
  | cons item items ih =>
      rw [List.mapM_cons]
      exact (each item).bind fun _ => ih.bind fun _ => unrefused_ok _

end Rules

theorem unrefused_arity (arity : Arity) (got : Nat) : Unrefused (arity.check got) := by
  rw [Arity.check]
  split
  · exact unrefused_ok ()
  · exact unrefused_error rfl

theorem unrefused_params (params : List Value) (got : Nat) :
    Unrefused (Params.check params got) := by
  rw [Params.check]
  split
  · exact unrefused_arity _ got
  · exact unrefused_error rfl

theorem unrefused_catchClause (clause : Value) : Unrefused (Special.catchClause? clause) := by
  rw [Special.catchClause?.eq_def]
  split
  · split
    · exact unrefused_error rfl
    · split
      · split
        · exact unrefused_ok _
        · exact unrefused_error rfl
      · exact unrefused_ok _
  · exact unrefused_ok _

theorem unrefused_element (kind : Element) (value : Value) : Unrefused (kind.convert value) := by
  rw [Element.convert.eq_def]
  split
  · exact unrefused_ok _
  · exact unrefused_ok _
  · exact unrefused_error rfl
  · exact unrefused_ok _
  · exact unrefused_error rfl

theorem unrefused_elements (kind : Element) (values : List Value) :
    Unrefused (kind.convertAll values) := by
  cases kind with
  | value => exact unrefused_ok values
  | number => exact unrefused_mapM (unrefused_element .number) values
  | string => exact unrefused_mapM (unrefused_element .string) values

theorem unrefused_param (kind : Param) (value : Value) : Unrefused (kind.convert value) := by
  cases kind with
  | value => exact unrefused_ok value
  | number => exact unrefused_element .number value
  | string => exact unrefused_element .string value
  | boolean =>
      cases value with
      | bool b => exact unrefused_ok b
      | _ => exact unrefused_error rfl
  | sequence element =>
      rw [Param.convert]
      split
      · exact unrefused_elements element _
      · exact unrefused_error rfl

theorem unrefused_convertArgs (fixed : List Param) (rest : Option Element) (args : List Value) :
    Unrefused (Signature.convertArgs fixed rest args) := by
  induction fixed generalizing args with
  | nil =>
      cases rest with
      | none => exact unrefused_ok ()
      | some element => exact unrefused_elements element args
  | cons param fixed ih =>
      cases args with
      | nil => cases rest <;> exact unrefused_error rfl
      | cons arg args =>
          rw [Signature.convertArgs]
          exact (unrefused_param param arg).bind fun _ => (ih args).bind fun _ => unrefused_ok _

theorem unrefused_convert (signature : Signature) (args : List Value) :
    Unrefused (signature.convert args) :=
  (unrefused_arity _ args.length).bind fun _ => unrefused_convertArgs _ _ args

namespace Operation

theorem unrefused_divideAll (x : Float) (ys : List Float) : Unrefused (divideAll x ys) := by
  induction ys generalizing x with
  | nil => exact unrefused_ok x
  | cons y ys ih =>
      rw [divideAll]
      split
      · exact unrefused_error rfl
      · exact ih (x / y)

theorem unrefused_mapOf (items : List Value) : Unrefused (mapOf items) := by
  rw [mapOf]
  split
  · exact unrefused_error rfl
  · split
    · exact unrefused_ok _
    · exact unrefused_error rfl

theorem unrefused_concatenation (args : List Value) : Unrefused (concatenation args) := by
  induction args with
  | nil => exact unrefused_ok []
  | cons arg args ih =>
      rw [concatenation]
      split
      · exact ih.map _
      · exact unrefused_error rfl

theorem unrefused_item (items : List Value) (index : Float) : Unrefused (item items index) := by
  rw [item]
  split
  · exact unrefused_ok _
  · exact unrefused_error rfl

theorem unrefused_size (value : Value) : Unrefused (size value) := by
  rw [size.eq_def]
  split
  · exact unrefused_ok _
  · exact unrefused_ok _
  · exact unrefused_ok _
  · exact unrefused_ok _
  · exact unrefused_error rfl

end Operation

end AnnotatedLisp
