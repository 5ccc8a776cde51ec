import AnnotatedLisp.Eval.Special
import AnnotatedLisp.Proofs.Renaming.Store

/-!
The binding of parameters and the building of forms under a renaming of nodes.
-/

namespace AnnotatedLisp

open Eval

namespace Renaming

variable {r : Renaming}

/-- An error that shows a form says the same of the renamed form. -/
theorem carries_refusal {α β : Type} {f : α → β} (words : String) (form : Value) :
    r.Carries f (raise (.invalidForm (words ++ form.text)))
      (raise (.invalidForm (words ++ (r.value form).text))) := by
  rw [Form.text_relabel]
  exact carries_raise _

section Parameters

theorem arity?_value (params : List Value) :
    Params.arity? (params.map r.value) = Params.arity? params := by
  have same : (fun param : Value => !param.isSymbol Params.restMarker) ∘ r.value =
      fun param => !param.isSymbol Params.restMarker :=
    funext fun param => congrArg not (Form.isSymbol_relabel r.rename _ param)
  rw [Params.arity?, Params.arity?, List.takeWhile_map, List.dropWhile_map, same, List.length_map]
  generalize params.dropWhile (fun param => !param.isSymbol Params.restMarker) = marked
  rcases marked with _ | ⟨marker, _ | ⟨rest, _ | ⟨extra, others⟩⟩⟩ <;> rfl

theorem check_arity (arity : Arity) (args : List Value) :
    arity.check (args.map r.value).length = r.result id (arity.check args.length) := by
  rw [List.length_map, Arity.check]
  split <;> rfl

theorem carries_check (params items : List Value) :
    r.Carries id (ofExcept (Params.check params items.length))
      (ofExcept (Params.check (params.map r.value) (items.map r.value).length)) := by
  rw [Params.check, Params.check, arity?_value]
  cases Params.arity? params with
  | none => exact carries_raise _
  | some arity => exact carries_ofExcept (check_arity arity items)

mutual

theorem carries_bind (scope : ScopeId) : ∀ param value : Value,
    r.Carries id (Params.bind scope param value) (Params.bind scope (r.value param) (r.value value))
  | .symbol name, value => by
      simpa only [Form.relabel, Params.bind] using carries_define scope name value
  | .seq label kind params, given => by
      rw [value, Form.relabel_seq, Params.bind, Params.bind, Form.elements?_relabel]
      cases given.elements? with
      | some items =>
          rw [Option.map_some]
          dsimp only
          exact (carries_check params items).bind fun _ => carries_bindItems scope params items
      | none =>
          rw [Option.map_none, ← Form.relabel_seq]
          dsimp only
          rw [Form.kindName_relabel, Form.text_relabel, Form.text_relabel]
          exact carries_raise _
  | .nil, _ | .bool _, _ | .number _, _ | .string _, _ | .keyword _, _ | .map _ _, _
  | .native _, _ | .fn _ _ _ _ _, _ => carries_refusal _ _

theorem carries_bindItems (scope : ScopeId) : ∀ params items : List Value,
    r.Carries id (Params.bindItems scope params items)
      (Params.bindItems scope (params.map r.value) (items.map r.value))
  | [], _ => by simpa only [List.map_nil, Params.bindItems] using carries_pure rfl
  | param :: params, items => by
      rw [List.map_cons, Params.bindItems.eq_def, Params.bindItems.eq_def]
      dsimp only
      rw [Form.isSymbol_relabel]
      split
      · cases params with
        | nil => exact carries_pure rfl
        | cons rest _ =>
            exact (carries_newSeq .list items).bind fun list => carries_bind scope rest list
      · cases items with
        | nil => exact carries_pure rfl
        | cons item items =>
            exact (carries_bind scope param item).bind fun _ => carries_bindItems scope params items

end

theorem carries_bindAll (scope : ScopeId) (params : Value) (args : List Value) :
    r.Carries id (Params.bindAll scope params args)
      (Params.bindAll scope (r.value params) (args.map r.value)) := by
  cases params with
  | symbol name => exact (carries_newSeq .list args).bind fun list => carries_define scope name list
  | seq label kind params =>
      rw [value, Form.relabel_seq, Params.bindAll, Params.bindAll]
      exact (carries_check params args).bind fun _ => carries_bindItems scope params args
  | _ => exact carries_refusal _ _

theorem carries_callScope (outer : ScopeId) (params : Value) (args : List Value) :
    r.Carries id (Params.newScope outer params args)
      (Params.newScope outer (r.value params) (args.map r.value)) :=
  (carries_newScope outer).bind fun scope =>
    (carries_bindAll scope params args).bind fun _ => carries_pure rfl

theorem carries_checkParams (form : String) (params : Value) :
    r.Carries id (Special.checkParams form params) (Special.checkParams form (r.value params)) := by
  cases params with
  | symbol _ | seq _ _ _ => exact carries_pure rfl
  | _ => exact carries_raise _

end Parameters

section Forms

theorem carries_bodyForm (forms : List Value) :
    r.Carries r.value (Special.bodyForm forms) (Special.bodyForm (forms.map r.value)) := by
  rcases forms with _ | ⟨form, _ | ⟨next, forms⟩⟩
  · exact carries_pure rfl
  · exact carries_pure rfl
  · exact carries_newSeq .list (.symbol "do" :: form :: next :: forms)

theorem carries_templateCall (name : String) (args : List Value) :
    r.Carries r.value (Template.call name args) (Template.call name (args.map r.value)) :=
  carries_newSeq .list (.symbol name :: args)

theorem unquoted?_value (items : List Value) :
    Template.unquoted? (items.map r.value) = (Template.unquoted? items).map r.value := by
  rcases items with _ | ⟨head, _ | ⟨form, _ | ⟨extra, others⟩⟩⟩
  · rfl
  · rfl
  · simp only [List.map_cons, List.map_nil, Template.unquoted?, Form.isSymbol_relabel]
    split <;> rfl
  · rfl

theorem spliced?_value (item : Value) :
    Template.spliced? (r.value item) = (Template.spliced? item).map r.value := by
  cases item with
  | seq label kind items =>
      rw [value, Form.relabel_seq]
      rcases items with _ | ⟨head, _ | ⟨form, _ | ⟨extra, others⟩⟩⟩
      · rfl
      · rfl
      · simp only [List.map_cons, List.map_nil, Template.spliced?, Form.isSymbol_relabel]
        split <;> rfl
      · rfl
  | _ => rfl

mutual

theorem carries_builder : ∀ template : Value,
    r.Carries r.value (Template.builder template) (Template.builder (r.value template))
  | .seq label kind items => by
      rw [value, Form.relabel_seq, Template.builder, Template.builder, List.isEmpty_map, unquoted?_value]
      split
      · rw [← Form.relabel_seq]
        exact carries_templateCall _ [.seq label kind items]
      · cases Template.unquoted? items with
        | some form => exact carries_pure rfl
        | none => exact carries_itemsBuilder items
  | .nil | .bool _ | .number _ | .string _ | .keyword _ | .symbol _ | .map _ _ | .native _
  | .fn _ _ _ _ _ => carries_templateCall _ [_]

theorem carries_itemsBuilder : ∀ items : List Value,
    r.Carries r.value (Template.itemsBuilder items) (Template.itemsBuilder (items.map r.value))
  | [] => by
      rw [List.map_nil, Template.itemsBuilder]
      exact (carries_newSeq .list []).bind fun list => carries_templateCall _ [list]
  | head :: rest => by
      rw [List.map_cons, Template.itemsBuilder, Template.itemsBuilder, ← List.map_cons, unquoted?_value,
        spliced?_value]
      cases Template.unquoted? (head :: rest) with
      | some form => exact carries_pure rfl
      | none =>
          dsimp only [Option.map_none]
          cases Template.spliced? head with
          | some form =>
              exact (carries_itemsBuilder rest).bind fun built => carries_templateCall _ [form, built]
          | none =>
              exact (carries_builder head).bind fun first =>
                (carries_itemsBuilder rest).bind fun built => carries_templateCall _ [first, built]

end

end Forms

end Renaming

end AnnotatedLisp
