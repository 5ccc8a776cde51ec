import AnnotatedLisp.Eval.Template
import AnnotatedLisp.Proofs.Computation
import AnnotatedLisp.Proofs.Outcome

/-!
What a template describes.

A template is filled from left to right. What is no sequence, or an empty one, stands for itself; a hole
stands for the value of its form; any other sequence becomes the list of what its items contribute, and a
splice or a hole at the end contributes the items of its value. Filling fails where a hole fails, and
goes no further.

An item of a list lies one level below the list that starts with it, so the items of a list lie deeper
from left to right. The list itself is made when all its items are there, by one node for each item.
-/

namespace AnnotatedLisp

open Eval

/-- The store after so many nodes were made. -/
def Store.withNodes (s : Store) (count : Nat) : Store :=
  { s with nextNode := s.nextNode + count }

/-- The name is not bound to a macro. -/
def Store.Macroless (s : Store) (name : String) (scope : ScopeId) : Prop :=
  ∀ label params body outer, s.lookup name scope ≠ some (.fn label params body outer true)

/-- The level is one that the limit allows, and the names by which templates are built have their usual
meaning. -/
structure Building (ctx : Context) (scope : ScopeId) (s : Store) : Prop where
  below : ctx.depth < ctx.limit
  quasiquote : s.Macroless "quasiquote" scope
  quote : s.Macroless "quote" scope
  cons : s.lookup "cons" scope = some (.native (.core .cons))
  concat : s.lookup "concat" scope = some (.native (.core .concat))

namespace Store

theorem macroless_of_native {s : Store} {name : String} {scope : ScopeId} {operation : Native}
    (bound : s.lookup name scope = some (.native operation)) : s.Macroless name scope := by
  intro _ _ _ _ other
  cases bound.symm.trans other

theorem withNodes_withNodes (s : Store) (m n : Nat) :
    (s.withNodes m).withNodes n = s.withNodes (m + n) := by
  simp only [withNodes, Nat.add_assoc]

end Store

section Relations

variable (host : Host) (scope : ScopeId)

mutual

/-- Filling the template ends in the value, or in the error of a hole, and leaves the last store. -/
inductive Fills : Context → Value → Store → Except Error Value → Store → Prop
  | whole {ctx : Context} {template : Value} {s : Store} (building : Building ctx scope s)
      (itemless : template.items?.getD [] = []) : Fills ctx template s (.ok template) s
  | hole {ctx : Context} {label : NodeId} {kind : SeqKind} {form : Value} {s t : Store}
      {result : Except Error Value} (evaluated : Evaluates host ctx form scope s result t) :
      Fills ctx (.seq label kind [.symbol "unquote", form]) s result t
  | items {ctx : Context} {label : NodeId} {kind : SeqKind} {items values : List Value}
      {made : Nat} {s t : Store} (inhabited : items ≠ [])
      (noHole : ∀ form, items ≠ [.symbol "unquote", form])
      (filled : FillsItems ctx items s (.ok (values, made)) t) :
      Fills ctx (.seq label kind items) s (.ok (.seq (t.nextNode + made - 1) .list values))
        (t.withNodes made)
  | itemsFailed {ctx : Context} {label : NodeId} {kind : SeqKind} {items : List Value} {s t : Store}
      {error : Error} (inhabited : items ≠ []) (noHole : ∀ form, items ≠ [.symbol "unquote", form])
      (failed : FillsItems ctx items s (.error error) t) :
      Fills ctx (.seq label kind items) s (.error error) t

/-- Filling the items one after the other ends in all that they contribute, together with the number
of items that the list is made of, or in the error of a hole. -/
inductive FillsItems : Context → List Value → Store → Except Error (List Value × Nat) → Store → Prop
  | nil {ctx : Context} {s : Store} (building : Building ctx scope s) :
      FillsItems ctx [] s (.ok ([], 0)) s
  | tail {ctx : Context} {form value : Value} {values : List Value} {s t : Store}
      (evaluated : Evaluates host ctx form scope s (.ok value) t)
      (elements : value.elements? = some values) :
      FillsItems ctx [.symbol "unquote", form] s (.ok (values, 0)) t
  | tailFailed {ctx : Context} {form : Value} {s t : Store} {error : Error}
      (evaluated : Evaluates host ctx form scope s (.error error) t) :
      FillsItems ctx [.symbol "unquote", form] s (.error error) t
  | cons {ctx : Context} {item : Value} {items first rest : List Value} {made : Nat} {s t u : Store}
      (building : Building ctx.nested scope s)
      (noHole : ∀ form, item :: items ≠ [.symbol "unquote", form])
      (contributed : Contributes ctx.nested item s (.ok first) t)
      (filled : FillsItems ctx.nested items t (.ok (rest, made)) u) :
      FillsItems ctx (item :: items) s (.ok (first ++ rest, made + 1)) u
  | firstFailed {ctx : Context} {item : Value} {items : List Value} {s t : Store} {error : Error}
      (building : Building ctx.nested scope s)
      (noHole : ∀ form, item :: items ≠ [.symbol "unquote", form])
      (failed : Contributes ctx.nested item s (.error error) t) :
      FillsItems ctx (item :: items) s (.error error) t
  | restFailed {ctx : Context} {item : Value} {items first : List Value} {s t u : Store}
      {error : Error} (building : Building ctx.nested scope s)
      (noHole : ∀ form, item :: items ≠ [.symbol "unquote", form])
      (contributed : Contributes ctx.nested item s (.ok first) t)
      (failed : FillsItems ctx.nested items t (.error error) u) :
      FillsItems ctx (item :: items) s (.error error) u

/-- What an item contributes: the items of a spliced value, or the filled item. -/
inductive Contributes : Context → Value → Store → Except Error (List Value) → Store → Prop
  | splice {ctx : Context} {label : NodeId} {kind : SeqKind} {form value : Value}
      {values : List Value} {s t : Store}
      (evaluated : Evaluates host ctx form scope s (.ok value) t)
      (elements : value.elements? = some values) :
      Contributes ctx (.seq label kind [.symbol "splice-unquote", form]) s (.ok values) t
  | spliceFailed {ctx : Context} {label : NodeId} {kind : SeqKind} {form : Value} {s t : Store}
      {error : Error} (evaluated : Evaluates host ctx form scope s (.error error) t) :
      Contributes ctx (.seq label kind [.symbol "splice-unquote", form]) s (.error error) t
  | item {ctx : Context} {item value : Value} {s t : Store}
      (noSplice : ∀ label kind form, item ≠ .seq label kind [.symbol "splice-unquote", form])
      (filled : Fills ctx item s (.ok value) t) : Contributes ctx item s (.ok [value]) t
  | itemFailed {ctx : Context} {item : Value} {s t : Store} {error : Error}
      (noSplice : ∀ label kind form, item ≠ .seq label kind [.symbol "splice-unquote", form])
      (failed : Fills ctx item s (.error error) t) : Contributes ctx item s (.error error) t

end

end Relations

namespace Template

variable {label : NodeId} {kind : SeqKind} {form item template : Value} {items : List Value}

mutual

/-- How many nodes the form that builds a template has. -/
def nodes : Value → Nat
  | .seq _ _ items =>
    if items.isEmpty then 1
    else match unquoted? items with
      | some _ => 0
      | none => itemsNodes items
  | _ => 1

/-- How many nodes the form that builds the items of a template has. -/
def itemsNodes : List Value → Nat
  | [] => 2
  | head :: rest =>
    match unquoted? (head :: rest) with
    | some _ => 0
    | none =>
      match spliced? head with
      | some _ => itemsNodes rest + 1
      | none => nodes head + itemsNodes rest + 1

end

theorem unquoted?_eq_some_iff :
    unquoted? items = some form ↔ items = [.symbol "unquote", form] := by
  rw [unquoted?.eq_def]
  split
  next head own =>
    by_cases h : head.isSymbol "unquote" = true
    · obtain rfl := Form.isSymbol_iff.1 h
      simp [Form.isSymbol]
    · have other : head ≠ .symbol "unquote" := fun same => h (Form.isSymbol_iff.2 same)
      simp [h, other]
  next none =>
    have other : items ≠ [.symbol "unquote", form] := fun same => none _ _ same
    simp [other]

theorem spliced?_eq_some_iff :
    spliced? item = some form ↔
      ∃ label kind, item = .seq label kind [.symbol "splice-unquote", form] := by
  rw [spliced?.eq_def]
  split
  next label kind head own =>
    by_cases h : head.isSymbol "splice-unquote" = true
    · obtain rfl := Form.isSymbol_iff.1 h
      simp [Form.isSymbol]
    · have other : head ≠ .symbol "splice-unquote" := fun same => h (Form.isSymbol_iff.2 same)
      simp [h, other]
  next none =>
    have other : ∀ label kind, item ≠ .seq label kind [.symbol "splice-unquote", form] :=
      fun _ _ same => none _ _ _ _ same
    simp [other]

theorem unquoted?_eq_none (noHole : ∀ form, items ≠ [.symbol "unquote", form]) :
    unquoted? items = none :=
  Option.eq_none_iff_forall_ne_some.2 fun form same => noHole form (unquoted?_eq_some_iff.1 same)

theorem spliced?_eq_none
    (noSplice : ∀ label kind form, item ≠ .seq label kind [.symbol "splice-unquote", form]) :
    spliced? item = none := by
  refine Option.eq_none_iff_forall_ne_some.2 fun form same => ?_
  obtain ⟨label, kind, here⟩ := spliced?_eq_some_iff.1 same
  exact noSplice label kind form here

theorem builder_of_itemless (itemless : template.items?.getD [] = []) :
    builder template = call "quote" [template] := by
  cases template with
  | seq label kind items =>
      obtain rfl : items = [] := itemless
      rw [builder.eq_def]
      rfl
  | _ => rw [builder.eq_def]

theorem builder_hole : builder (.seq label kind [.symbol "unquote", form]) = pure form := by
  rw [builder.eq_def]
  rfl

theorem builder_items (inhabited : items ≠ [])
    (noHole : ∀ form, items ≠ [.symbol "unquote", form]) :
    builder (.seq label kind items) = itemsBuilder items := by
  rw [builder.eq_def]
  dsimp only
  rw [if_neg (by simp [inhabited]), unquoted?_eq_none noHole]

theorem itemsBuilder_tail : itemsBuilder [.symbol "unquote", form] = pure form := by
  rw [itemsBuilder.eq_def]
  rfl

theorem itemsBuilder_splice :
    itemsBuilder (.seq label kind [.symbol "splice-unquote", form] :: items) =
      (do call "concat" [form, ← itemsBuilder items]) := by
  rw [itemsBuilder.eq_def]
  dsimp only
  rw [unquoted?_eq_none fun _ h => by cases h]
  rfl

theorem itemsBuilder_item (noHole : ∀ form, item :: items ≠ [.symbol "unquote", form])
    (noSplice : ∀ label kind form, item ≠ .seq label kind [.symbol "splice-unquote", form]) :
    itemsBuilder (item :: items) =
      (do let head ← builder item
          call "cons" [head, ← itemsBuilder items]) := by
  rw [itemsBuilder.eq_def]
  dsimp only
  rw [unquoted?_eq_none noHole, spliced?_eq_none noSplice]

theorem call_apply (name : String) (args : List Value) (s : Store) :
    call name args s = .ok (.seq s.nextNode .list (.symbol name :: args)) (s.withNodes 1) := rfl

/-- A splice is joined to the form that builds the items after it. -/
theorem joined_splice {s t : Store}
    (built : itemsBuilder (.seq label kind [.symbol "splice-unquote", form] :: items) s =
      .ok template t) :
    ∃ node rest u, template = .seq node .list [.symbol "concat", form, rest] ∧
      itemsBuilder items s = .ok rest u := by
  rw [itemsBuilder_splice] at built
  obtain ⟨rest, u, made, called⟩ := bind_eq_ok_iff.1 built
  cases called
  exact ⟨_, rest, u, rfl, made⟩

/-- Any other item is built, and joined to the form that builds the items after it. -/
theorem joined_item (noHole : ∀ form, item :: items ≠ [.symbol "unquote", form])
    (noSplice : ∀ label kind form, item ≠ .seq label kind [.symbol "splice-unquote", form])
    {s t : Store} (built : itemsBuilder (item :: items) s = .ok template t) :
    ∃ node first rest u v, template = .seq node .list [.symbol "cons", first, rest] ∧
      builder item s = .ok first u ∧ itemsBuilder items u = .ok rest v := by
  rw [itemsBuilder_item noHole noSplice] at built
  obtain ⟨first, u, made, called⟩ := bind_eq_ok_iff.1 built
  obtain ⟨rest, v, made', called⟩ := bind_eq_ok_iff.1 called
  cases called
  exact ⟨_, first, rest, u, v, rfl, made, made'⟩

mutual

/-- The form that builds a template has so many nodes, and is all that is made. -/
theorem builder_apply : ∀ (template : Value) (s : Store),
    ∃ form, builder template s = .ok form (s.withNodes (nodes template))
  | .seq label kind items, s => by
      rw [builder.eq_def, nodes.eq_def]
      dsimp only
      split
      · exact ⟨_, rfl⟩
      · cases unquoted? items with
        | some form => exact ⟨form, rfl⟩
        | none => exact itemsBuilder_apply items s
  | .nil, s | .bool _, s | .number _, s | .string _, s | .keyword _, s | .symbol _, s | .map _ _, s
  | .native _, s | .fn _ _ _ _ _, s => by
      rw [builder.eq_def, nodes.eq_def]
      exact ⟨_, rfl⟩

theorem itemsBuilder_apply : ∀ (items : List Value) (s : Store),
    ∃ form, itemsBuilder items s = .ok form (s.withNodes (itemsNodes items))
  | [], s => ⟨_, rfl⟩
  | head :: rest, s => by
      rw [itemsBuilder.eq_def, itemsNodes.eq_def]
      dsimp only
      cases unquoted? (head :: rest) with
      | some form => exact ⟨form, rfl⟩
      | none =>
          cases spliced? head with
          | some form =>
              obtain ⟨tail, built⟩ := itemsBuilder_apply rest s
              dsimp only
              rw [bind_of_ok built, call_apply, Store.withNodes_withNodes]
              exact ⟨_, rfl⟩
          | none =>
              obtain ⟨first, built⟩ := builder_apply head s
              obtain ⟨tail, built'⟩ := itemsBuilder_apply rest (s.withNodes (nodes head))
              dsimp only
              rw [bind_of_ok built, bind_of_ok built', call_apply, Store.withNodes_withNodes,
                Store.withNodes_withNodes]
              exact ⟨_, rfl⟩

end

end Template

end AnnotatedLisp
