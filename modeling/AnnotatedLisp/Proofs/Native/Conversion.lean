import AnnotatedLisp.Native.Signature
import Mathlib.Data.List.Forall2

/-!
What a parameter reads, and what it refuses.

A parameter either reads an argument or refuses it with an error that names the argument, or in a sequence the
first element of another kind. A sequence is handed over as a whole and yields its elements when they are asked
for, when nothing can be refused any more; all of them were looked at before, so that each has something to yield.
-/

namespace AnnotatedLisp

section Traversal

variable {α β ε : Type} {f : α → Except ε β} {items : List α}

theorem mapM_eq_ok_iff {values : List β} :
    items.mapM f = .ok values ↔ List.Forall₂ (fun item value => f item = .ok value) items values := by
  induction items generalizing values with
  | nil =>
      rw [List.forall₂_nil_left_iff, List.mapM_nil]
      exact ⟨fun h => (Except.ok.inj h).symm, fun h => h ▸ rfl⟩
  | cons item items ih =>
      rw [List.mapM_cons, List.forall₂_cons_left_iff]
      cases first : f item with
      | error error => exact ⟨nofun, fun ⟨_, _, h, _⟩ => nomatch h⟩
      | ok value =>
          cases rest : items.mapM f with
          | error error => exact ⟨nofun, fun ⟨_, _, _, h, _⟩ => nomatch rest.symm.trans (ih.2 h)⟩
          | ok others =>
              constructor
              · rintro ⟨⟩
                exact ⟨value, others, rfl, ih.1 rest, rfl⟩
              · rintro ⟨_, _, ⟨⟩, h, rfl⟩
                cases rest.symm.trans (ih.2 h)
                rfl

/-- The first item that fails decides. -/
theorem mapM_eq_error_iff {error : ε} :
    items.mapM f = .error error ↔ ∃ before item after, items = before ++ item :: after ∧
      (∀ other ∈ before, ∃ value, f other = .ok value) ∧ f item = .error error := by
  induction items with
  | nil => exact ⟨nofun, fun ⟨before, _, _, h, _⟩ => by cases before <;> cases h⟩
  | cons first items ih =>
      rw [List.mapM_cons]
      cases here : f first with
      | error own =>
          constructor
          · rintro ⟨⟩
            exact ⟨[], first, items, rfl, nofun, here⟩
          · rintro ⟨before, item, after, split, fit, failed⟩
            cases before with
            | nil =>
                cases split
                cases here.symm.trans failed
                rfl
            | cons _ before =>
                cases split
                obtain ⟨value, ok⟩ := fit first List.mem_cons_self
                cases here.symm.trans ok
      | ok value =>
          have later : (do let value ← Except.ok value
                           let values ← items.mapM f
                           pure (value :: values) : Except ε (List β)) = .error error ↔
              items.mapM f = .error error := by
            cases items.mapM f with
            | error own => exact ⟨fun h => h, fun h => h⟩
            | ok values => exact ⟨nofun, nofun⟩
          rw [later, ih]
          constructor
          · rintro ⟨before, item, after, rfl, fit, failed⟩
            exact ⟨first :: before, item, after, rfl, List.forall_mem_cons.2 ⟨⟨value, here⟩, fit⟩, failed⟩
          · rintro ⟨before, item, after, split, fit, failed⟩
            cases before with
            | nil =>
                cases split
                cases here.symm.trans failed
            | cons _ before =>
                cases split
                exact ⟨before, item, after, rfl, (List.forall_mem_cons.1 fit).2, failed⟩

end Traversal

namespace Element

variable {kind : Element} {v : Value}

/-- What elements of the kind are called in messages. -/
def noun : Element → String
  | value => "value"
  | number => "number"
  | string => "string"

/-- What a sequence of the kind yields for an element. It has nothing to yield for one of another kind. -/
def project? : (kind : Element) → Value → Option kind.Carrier
  | value, v => some v
  | number, .number x => some x
  | number, _ => none
  | string, .string text => some text
  | string, _ => none

/-- The kind of the parameters that read one element as an argument. -/
def param : Element → Param
  | value => .value
  | number => .number
  | string => .string

theorem convert_eq_ok_iff {x : kind.Carrier} : kind.convert v = .ok x ↔ kind.project? v = some x := by
  cases kind <;> cases v <;> simp [convert, project?]

theorem convert_eq_error_iff {error : Error} :
    kind.convert v = .error error ↔ kind.project? v = none ∧ error = .expected kind.noun v := by
  cases kind <;> cases v <;> simp [convert, project?, noun, eq_comm]

theorem convertAll_eq (kind : Element) (values : List Value) :
    kind.convertAll values = values.mapM kind.convert := by
  cases kind with
  | value => exact (mapM_eq_ok_iff.2 (List.forall₂_same.2 fun _ _ => rfl)).symm
  | number | string => rfl

/-- A sequence whose elements are all of its kind yields something for each of them. -/
theorem convertAll_eq_ok_iff {values : List Value} {xs : List kind.Carrier} :
    kind.convertAll values = .ok xs ↔ List.Forall₂ (fun v x => kind.project? v = some x) values xs := by
  simp only [convertAll_eq, mapM_eq_ok_iff, convert_eq_ok_iff]

theorem convertAll_eq_error_iff {values : List Value} {error : Error} :
    kind.convertAll values = .error error ↔ ∃ before item after, values = before ++ item :: after ∧
      (∀ other ∈ before, ∃ x, kind.project? other = some x) ∧ kind.project? item = none ∧
      error = .expected kind.noun item := by
  simp only [convertAll_eq, mapM_eq_error_iff, convert_eq_ok_iff, convert_eq_error_iff]

end Element

namespace Param

variable {kind : Param} {v : Value}

/-- What an argument is read as by a parameter of the kind. A sequence is a list, a vector or `nil`, and each of
its elements has something to yield. -/
def Reads : (kind : Param) → Value → kind.Carrier → Prop
  | value, v, w => v = w
  | number, v, x => v = .number x
  | boolean, v, b => v = .bool b
  | string, v, text => v = .string text
  | sequence element, v, xs =>
    ∃ items, v.elements? = some items ∧ List.Forall₂ (fun item x => element.project? item = some x) items xs

/-- The error of an argument that a parameter of the kind cannot read. -/
inductive Refuses : Param → Value → Error → Prop
  | number {v : Value} (other : ∀ x, v ≠ .number x) : Refuses .number v (.expected "number" v)
  | boolean {v : Value} (other : ∀ b, v ≠ .bool b) : Refuses .boolean v (.expected "boolean" v)
  | string {v : Value} (other : ∀ text, v ≠ .string text) : Refuses .string v (.expected "string" v)
  | scalar {element : Element} {v : Value} (other : v.elements? = none) :
      Refuses (.sequence element) v (.expected "list or vector" v)
  | element {element : Element} {v item : Value} {before after : List Value}
      (elements : v.elements? = some (before ++ item :: after))
      (fit : ∀ other ∈ before, ∃ x, element.project? other = some x)
      (other : element.project? item = none) :
      Refuses (.sequence element) v (.expected element.noun item)

theorem convert_eq_ok_iff {x : kind.Carrier} : kind.convert v = .ok x ↔ kind.Reads v x := by
  cases kind with
  | value => simp [convert, Reads]
  | number => cases v <;> simp [convert, Element.convert, Reads]
  | boolean => cases v <;> simp [convert, Reads]
  | string => cases v <;> simp [convert, Element.convert, Reads]
  | sequence element =>
      rw [convert, Reads]
      cases v.elements? with
      | none => simp
      | some items => simp [Element.convertAll_eq_ok_iff]

theorem convert_eq_error_iff {error : Error} : kind.convert v = .error error ↔ kind.Refuses v error := by
  constructor
  · intro failed
    cases kind with
    | value => cases failed
    | number =>
        cases v <;> cases failed
        all_goals exact .number nofun
    | boolean =>
        cases v <;> cases failed
        all_goals exact .boolean nofun
    | string =>
        cases v <;> cases failed
        all_goals exact .string nofun
    | sequence element =>
        rw [convert] at failed
        split at failed
        next items elements =>
          obtain ⟨before, item, after, rfl, fit, other, rfl⟩ := Element.convertAll_eq_error_iff.1 failed
          exact .element elements fit other
        next other =>
          cases failed
          exact .scalar other
  · intro refused
    cases refused with
    | number other =>
        cases v with
        | number x => exact absurd rfl (other x)
        | _ => rfl
    | boolean other =>
        cases v with
        | bool b => exact absurd rfl (other b)
        | _ => rfl
    | string other =>
        cases v with
        | string text => exact absurd rfl (other text)
        | _ => rfl
    | scalar other => rw [convert, other]
    | element elements fit other =>
        rw [convert, elements]
        exact Element.convertAll_eq_error_iff.2 ⟨_, _, _, rfl, fit, other, rfl⟩

theorem Refuses.not_reads {error : Error} (refused : kind.Refuses v error) (x : kind.Carrier) :
    ¬ kind.Reads v x := by
  intro reads
  cases (convert_eq_ok_iff.2 reads).symm.trans (convert_eq_error_iff.2 refused)

theorem Refuses.exists_text {error : Error} (refused : kind.Refuses v error) :
    ∃ text, error = .typeError text := by
  cases refused <;> exact ⟨_, rfl⟩

end Param

namespace Element

variable {element : Element} {v : Value}

theorem exists_reads_iff : (∃ x, element.param.Reads v x) ↔ ∃ x, element.project? v = some x := by
  cases element <;> cases v <;> simp [param, Param.Reads, project?]

theorem param_refuses_iff {error : Error} :
    element.param.Refuses v error ↔ element.project? v = none ∧ error = .expected element.noun v := by
  rw [← Param.convert_eq_error_iff, ← convert_eq_error_iff]
  cases element with
  | value => exact ⟨nofun, nofun⟩
  | number | string => rfl

end Element

end AnnotatedLisp
