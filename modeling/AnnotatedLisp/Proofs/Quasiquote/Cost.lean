import AnnotatedLisp.Proofs.Equality
import AnnotatedLisp.Proofs.Limit.Guard
import AnnotatedLisp.Proofs.Quasiquote.Evaluation
import AnnotatedLisp.Proofs.Renaming.Closed
import Mathlib

/-!
What a template without holes costs.

Such a template describes itself, so quasiquoting it differs from quoting it in two ways: its sequences are
built anew, as lists, and this takes levels. An item of a list is built one level below the list that starts
with it, hence each item lies deeper than the one before. Evaluation succeeds if the limit allows all these
levels, and is refused one of them otherwise; nothing but nodes is made on the way.
-/

namespace AnnotatedLisp

open Eval Filter

/-- Quotations and calls of `cons` have their usual meaning. -/
structure Quoting (scope : ScopeId) (s : Store) : Prop where
  quasiquote : s.Macroless "quasiquote" scope
  quote : s.Macroless "quote" scope
  cons : s.lookup "cons" scope = some (.native (.core .cons))

theorem Quoting.withNodes {scope : ScopeId} {s : Store} (quoting : Quoting scope s) (count : Nat) :
    Quoting scope (s.withNodes count) where
  quasiquote := quoting.quasiquote.withNodes count
  quote := quoting.quote.withNodes count
  cons := (s.lookup_withNodes count "cons" scope).trans quoting.cons

namespace Template

mutual

/-- The symbols that mark holes do not occur in the template. What occurs in a map or a function does not
matter, for these are quoted whole. -/
def Holeless : Value → Prop
  | .symbol name => name ≠ "unquote" ∧ name ≠ "splice-unquote"
  | .seq _ _ items => ItemsHoleless items
  | _ => True

def ItemsHoleless : List Value → Prop
  | [] => True
  | item :: items => Holeless item ∧ ItemsHoleless items

end

mutual

/-- How many levels below its own a template is built on. -/
def cost : Value → Nat
  | .seq _ _ items => itemsCost items
  | _ => 0

def itemsCost : List Value → Nat
  | [] => 0
  | item :: items => max (cost item) (itemsCost items) + 1

end

theorem itemsCost_le_iff {items : List Value} {n : Nat} :
    itemsCost items ≤ n ↔ ∀ i : Fin items.length, i + 1 + cost items[i] ≤ n := by
  induction items generalizing n with
  | nil => simp [itemsCost]
  | cons item items ih =>
      cases n with
      | zero => simp [itemsCost]
      | succ n =>
          simp only [itemsCost, Nat.add_le_add_iff_right, Nat.max_le, ih, Fin.forall_fin_succ,
            List.length_cons, Fin.val_zero, Fin.val_succ, Fin.getElem_fin, List.getElem_cons_zero,
            List.getElem_cons_succ]
          exact and_congr (by omega) (forall_congr' fun i => by omega)

/-- The cost of a sequence is the largest sum of a position in it, counted from one, and the cost of the item
there. -/
theorem cost_seq (label : NodeId) (kind : SeqKind) (items : List Value) :
    cost (.seq label kind items) =
      Finset.univ.sup fun i : Fin items.length => i + 1 + cost items[i] :=
  eq_of_forall_ge_iff fun n => by
    rw [cost, itemsCost_le_iff, Finset.sup_le_iff]
    simp only [Finset.mem_univ, true_implies]

/-- The value has the atoms and the structure of the template. Outside of maps, every sequence that has items
was made anew, from the node `first` on and as a list; all else is the template's own. -/
inductive Rebuilt (first : NodeId) : Value → Value → Prop
  | whole {template : Value} (itemless : template.items?.getD [] = []) : Rebuilt first template template
  | list {label node : NodeId} {kind : SeqKind} {items values : List Value} (inhabited : items ≠ [])
      (new : first ≤ node) (rebuilt : List.Forall₂ (Rebuilt first) items values) :
      Rebuilt first (.seq label kind items) (.seq node .list values)

/-- The value is a list of the items, rebuilt. -/
def RebuiltList (first : NodeId) (items : List Value) (value : Value) : Prop :=
  ∃ node values, value = .seq node .list values ∧ (items ≠ [] → first ≤ node) ∧
    List.Forall₂ (Rebuilt first) items values

theorem Rebuilt.eq_of_itemless {first : NodeId} {template value : Value}
    (rebuilt : Rebuilt first template value) (itemless : template.items?.getD [] = []) :
    value = template := by
  cases rebuilt with
  | whole => rfl
  | list inhabited => exact absurd itemless inhabited

theorem Rebuilt.exists_list {first label : NodeId} {kind : SeqKind} {items : List Value} {value : Value}
    (rebuilt : Rebuilt first (.seq label kind items) value) (inhabited : items ≠ []) :
    RebuiltList first items value := by
  cases rebuilt with
  | whole itemless => exact absurd itemless inhabited
  | list _ new rebuilt => exact ⟨_, _, rfl, fun _ => new, rebuilt⟩

mutual

/-- A template without a NaN equals what it is rebuilt as. -/
theorem Rebuilt.beq {first : NodeId} : ∀ {template value : Value}, Rebuilt first template value →
    template.hasNaN = false → (template == value) = true
  | _, _, .whole _, numbers => Value.beq_self numbers
  | .seq _ _ _, _, .list _ _ rebuilt, numbers =>
      Value.beq_seq_iff.2 ⟨_, _, _, rfl, .inr (itemsEqual_of_rebuilt rebuilt numbers)⟩

theorem itemsEqual_of_rebuilt {first : NodeId} : ∀ {items values : List Value},
    List.Forall₂ (Rebuilt first) items values → Form.itemsHaveNaN items = false →
    Value.itemsEqual items values = true
  | [], _, .nil, _ => rfl
  | _ :: _, _, .cons rebuilt others, numbers => by
      obtain ⟨number, numbers⟩ := Bool.or_eq_false_iff.1 numbers
      exact Bool.and_eq_true_iff.2 ⟨rebuilt.beq number, itemsEqual_of_rebuilt others numbers⟩

end

theorem cost_of_itemless {template : Value} (itemless : template.items?.getD [] = []) :
    cost template = 0 := by
  cases template with
  | seq label kind items =>
      obtain rfl : items = [] := itemless
      rfl
  | _ => rfl

theorem ItemsHoleless.noHole {items : List Value} (holeless : ItemsHoleless items) (form : Value) :
    items ≠ [.symbol "unquote", form] := by
  rintro rfl
  exact holeless.1.1 rfl

theorem Holeless.noSplice {item : Value} (holeless : Holeless item) (label : NodeId) (kind : SeqKind)
    (form : Value) : item ≠ .seq label kind [.symbol "splice-unquote", form] := by
  rintro rfl
  exact holeless.1.2 rfl

end Template

/-- Evaluating the form needs so many levels below its own: if the limit allows them it comes to such a
value, and otherwise it is refused one of them. Only nodes are made. -/
structure Needs (host : Host) (ctx : Context) (form : Value) (scope : ScopeId) (s : Store) (levels : Nat)
    (property : Value → Prop) : Prop where
  succeeds : ctx.depth + levels < ctx.limit →
    ∃ value made, Evaluates host ctx form scope s (.ok value) (s.withNodes made) ∧ property value
  refused : ctx.limit ≤ ctx.depth + levels →
    ∃ made, Evaluates host ctx form scope s (.error (.depthExceeded ctx.limit)) (s.withNodes made)

section Levels

variable {host : Host} (monotone : host.Monotone) {ctx : Context} (off : ctx.annotate = false)
  {scope : ScopeId} {s : Store}

include monotone off

theorem needs_quote (plain : s.Macroless "quote" scope) (node : NodeId) (form : Value)
    {property : Value → Prop} (holds : property form) :
    Needs host ctx (.seq node .list [.symbol "quote", form]) scope s 0 property where
  succeeds below := ⟨form, 0, evaluates_quote monotone off below plain node form, holds⟩
  refused last := ⟨0, ends_of_refused (c := ⟨_, _, _⟩) last⟩

/-- Both arguments of a call of `cons` lie one level below it. -/
theorem needs_cons {bound : NodeId} (new : bound ≤ s.nextNode)
    (cons : s.lookup "cons" scope = some (.native (.core .cons))) {item first rest : Value}
    {items : List Value} {m n : Nat}
    (head : Needs host ctx.nested first scope s m (Template.Rebuilt bound item))
    (tail : ∀ made,
      Needs host ctx.nested rest scope (s.withNodes made) n (Template.RebuiltList bound items))
    (node : NodeId) :
    Needs host ctx (.seq node .list [.symbol "cons", first, rest]) scope s (max m n + 1)
      (Template.RebuiltList bound (item :: items)) where
  succeeds deep := by
    have nested : ctx.nested.depth + max m n < ctx.nested.limit := by
      change ctx.depth + 1 + max m n < ctx.limit
      omega
    have below : ctx.nested.depth < ctx.limit := Nat.lt_of_le_of_lt (Nat.le_add_right _ _) nested
    obtain ⟨value, made, evaluated, rebuilt⟩ := head.succeeds (by omega)
    obtain ⟨_, made', evaluated', old, values, rfl, _, others⟩ := (tail made).succeeds (by omega)
    refine ⟨.seq ((s.withNodes made).withNodes made').nextNode .list (value :: values), made + made' + 1,
      ?_, _, _, rfl, fun _ => ?_, .cons rebuilt others⟩
    · -- The list itself takes one node more than its parts.
      rw [← Store.withNodes_withNodes, ← Store.withNodes_withNodes]
      exact evaluates_core_call monotone off below rfl cons (.cons evaluated (.cons evaluated' .nil))
        (cons_apply rfl _) node
    · exact Nat.le_trans new (Nat.le_trans (Nat.le_add_right _ _) (Nat.le_add_right _ _))
  refused tooDeep := by
    have nested : ctx.nested.limit ≤ ctx.nested.depth + max m n := by
      change ctx.limit ≤ ctx.depth + 1 + max m n
      omega
    -- What is refused is the first that lies too deep: the call, its operation, or one of its arguments.
    rcases le_or_gt ctx.limit ctx.depth with last | here
    · exact ⟨0, ends_of_refused (c := ⟨_, _, _⟩) last⟩
    rcases le_or_gt ctx.limit ctx.nested.depth with last | below
    · have plain := calledMacro?_of_macroless (Store.macroless_of_native cons) node [first, rest]
      have refused : Evaluates host ctx.nested (.symbol "cons") scope s
          (.error (.depthExceeded ctx.limit)) s :=
        ends_of_refused (c := ⟨_, _, _⟩) last
      exact ⟨0, evaluates_call_of_head_error monotone off here rfl plain refused⟩
    rcases le_or_gt ctx.nested.limit (ctx.nested.depth + m) with last | enough
    · obtain ⟨made, failed⟩ := head.refused last
      exact ⟨made, evaluates_core_call_error monotone off below rfl cons .nil failed node⟩
    obtain ⟨value, made, evaluated, _⟩ := head.succeeds enough
    obtain ⟨made', failed⟩ := (tail made).refused (by omega)
    rw [Store.withNodes_withNodes] at failed
    exact ⟨_, evaluates_core_call_error monotone off below rfl cons (.cons evaluated .nil) failed node⟩

end Levels

section Built

open Template

variable {host : Host} (monotone : host.Monotone) {scope : ScopeId} {bound : NodeId}

include monotone

theorem needs_whole {ctx : Context} (off : ctx.annotate = false) {s s₀ s₁ : Store}
    (quoting : Quoting scope s) {template form : Value} (itemless : template.items?.getD [] = [])
    (built : builder template s₀ = .ok form s₁) :
    Needs host ctx form scope s (cost template) (Rebuilt bound template) := by
  rw [builder_of_itemless itemless, call_apply] at built
  cases built
  rw [cost_of_itemless itemless]
  exact needs_quote monotone off quoting.quote _ template (.whole itemless)

mutual

/-- By induction on the template, which has been built at any time and is evaluated on any level. -/
theorem needs_of_builder : ∀ (template : Value), Holeless template → ∀ (ctx : Context),
    ctx.annotate = false → ∀ (s : Store), Quoting scope s → bound ≤ s.nextNode →
    ∀ form s₀ s₁, builder template s₀ = .ok form s₁ →
      Needs host ctx form scope s (cost template) (Rebuilt bound template)
  | .seq label kind [], _, _, off, _, quoting, _, _, _, _, built =>
      needs_whole monotone off quoting rfl built
  | .seq label kind (item :: items), holeless, ctx, off, s, quoting, new, form, s₀, s₁, built => by
      have inhabited : item :: items ≠ [] := List.cons_ne_nil _ _
      rw [builder_items inhabited (ItemsHoleless.noHole holeless)] at built
      have needs := needs_of_itemsBuilder (item :: items) holeless ctx off s quoting new form s₀ s₁ built
      refine ⟨fun deep => ?_, needs.refused⟩
      obtain ⟨_, made, evaluated, node, values, rfl, made', rebuilt⟩ := needs.succeeds deep
      exact ⟨_, made, evaluated, .list inhabited (made' inhabited) rebuilt⟩
  | .nil, _, _, off, _, quoting, _, _, _, _, built | .bool _, _, _, off, _, quoting, _, _, _, _, built
  | .number _, _, _, off, _, quoting, _, _, _, _, built
  | .string _, _, _, off, _, quoting, _, _, _, _, built
  | .keyword _, _, _, off, _, quoting, _, _, _, _, built
  | .symbol _, _, _, off, _, quoting, _, _, _, _, built
  | .map _ _, _, _, off, _, quoting, _, _, _, _, built
  | .native _, _, _, off, _, quoting, _, _, _, _, built
  | .fn _ _ _ _ _, _, _, off, _, quoting, _, _, _, _, built => needs_whole monotone off quoting rfl built

theorem needs_of_itemsBuilder : ∀ (items : List Value), ItemsHoleless items → ∀ (ctx : Context),
    ctx.annotate = false → ∀ (s : Store), Quoting scope s → bound ≤ s.nextNode →
    ∀ form s₀ s₁, itemsBuilder items s₀ = .ok form s₁ →
      Needs host ctx form scope s (itemsCost items) (RebuiltList bound items)
  | [], _, _, off, s, quoting, _, _, _, _, built => by
      cases built
      exact needs_quote monotone off quoting.quote _ _ ⟨_, [], rfl, nofun, .nil⟩
  | item :: items, holeless, ctx, off, s, quoting, new, form, s₀, s₁, built => by
      obtain ⟨node, first, rest, s₂, s₃, rfl, made, made'⟩ :=
        joined_item (ItemsHoleless.noHole holeless) (Holeless.noSplice holeless.1) built
      have head := needs_of_builder item holeless.1 ctx.nested off s quoting new first s₀ s₂ made
      have tail (count : Nat) := needs_of_itemsBuilder items holeless.2 ctx.nested off
        (s.withNodes count) (quoting.withNodes count) (Nat.le_trans new (Nat.le_add_right _ _)) rest s₂ s₃
        made'
      exact needs_cons monotone off new quoting.cons head tail node

end

/-- The calls that build the template take the place of the quasiquoted form, on its level. -/
theorem needs_quasiquote {ctx : Context} (off : ctx.annotate = false) {s : Store}
    (quoting : Quoting scope s) (node : NodeId) {template : Value} (holeless : Holeless template) :
    Needs host ctx (.seq node .list [.symbol "quasiquote", template]) scope s (cost template)
      (Rebuilt s.nextNode template) := by
  obtain ⟨form, built⟩ := builder_apply template s
  have needs : Needs host ctx form scope (s.withNodes (nodes template)) (cost template)
      (Rebuilt s.nextNode template) :=
    needs_of_builder monotone template holeless ctx off _ (quoting.withNodes _) (Nat.le_add_right _ _)
      form s _ built
  have tail : TailStep host ctx ⟨.seq node .list [.symbol "quasiquote", template], scope, s⟩
      ⟨form, scope, s.withNodes (nodes template)⟩ :=
    ⟨calledMacro?_of_macroless quoting.quasiquote node [template], .quasiquote built⟩
  constructor
  · intro deep
    have below : ctx.depth < ctx.limit := Nat.lt_of_le_of_lt (Nat.le_add_right _ _) deep
    obtain ⟨value, made, evaluated, rebuilt⟩ := needs.succeeds deep
    rw [Store.withNodes_withNodes] at evaluated
    exact ⟨value, _, (ends_iff_of_tailStep monotone off below tail).2 evaluated, rebuilt⟩
  · intro tooDeep
    rcases Nat.lt_or_ge ctx.depth ctx.limit with below | last
    · obtain ⟨made, refused⟩ := needs.refused tooDeep
      rw [Store.withNodes_withNodes] at refused
      exact ⟨_, (ends_iff_of_tailStep monotone off below tail).2 refused⟩
    · exact ⟨0, ends_of_refused (c := ⟨_, _, _⟩) last⟩

end Built

section

open Template

/-- Quasiquoting a template without holes quotes it, up to what it costs: under a limit above its cost the
value is the template with its sequences rebuilt as lists, and under any other limit the evaluation is refused
a level. Scopes are left as they are and nothing is printed, whether stamps are made or not. -/
theorem quasiquote_of_holeless {host : Host} (monotone : host.Monotone) (equivariant : host.Equivariant)
    (annotate : Bool) (limit : Nat) (scope : ScopeId) (s : Store) (quoting : Quoting scope s)
    (node : NodeId) (template : Value) (holeless : Holeless template) :
    (cost template < limit → ∃ value t,
      Evaluates host (.within annotate limit) (.seq node .list [.symbol "quasiquote", template]) scope s
          (.ok value) t ∧
        Rebuilt s.nextNode template value ∧ t.scopes = s.scopes ∧ t.output = s.output) ∧
    (limit ≤ cost template → ∃ t,
      Evaluates host (.within annotate limit) (.seq node .list [.symbol "quasiquote", template]) scope s
          (.error (.depthExceeded limit)) t ∧
        t.scopes = s.scopes ∧ t.output = s.output) := by
  have needs : Needs host (.within false limit) (.seq node .list [.symbol "quasiquote", template]) scope s
      (cost template) (Rebuilt s.nextNode template) :=
    needs_quasiquote monotone rfl quoting node holeless
  have level : (Context.within false limit).depth + cost template = cost template := Nat.zero_add _
  have alike : (Context.within false limit).Alike (.within annotate limit) := ⟨rfl, rfl⟩
  constructor
  · intro enough
    obtain ⟨value, made, evaluated, rebuilt⟩ := needs.succeeds (level.symm ▸ enough)
    obtain ⟨t, evaluated, scopes, output⟩ := exists_evaluates_of_alike equivariant alike evaluated
    exact ⟨value, t, evaluated, rebuilt, scopes, output⟩
  · intro tooLow
    obtain ⟨made, refused⟩ := needs.refused (level.symm ▸ tooLow)
    obtain ⟨t, refused, scopes, output⟩ := exists_evaluates_of_alike equivariant alike refused
    exact ⟨t, refused, scopes, output⟩

/-- The template `(a [b nil] [])` costs four levels: two for the vector at its second place, and two for the
items there. -/
theorem quasiquote_of_nested_vector :
    let template : Value :=
      .seq 1 .list [.symbol "a", .seq 2 .vector [.symbol "b", .nil], .seq 3 .vector []]
    let form : Value := .seq 4 .list [.symbol "quasiquote", template]
    let s : Store := ⟨#[⟨[("cons", .native (.core .cons))], none⟩], 5, ∅, ""⟩
    Holeless template ∧
      (∃ node inner t, Evaluates Host.none (.within true 5) form 0 s
          (.ok (.seq node .list [.symbol "a", .seq inner .list [.symbol "b", .nil], .seq 3 .vector []])) t ∧
        t.scopes = s.scopes) ∧
      ∃ t, Evaluates Host.none (.within true 4) form 0 s (.error (.depthExceeded 4)) t ∧
        t.scopes = s.scopes := by
  intro template form s
  have quoting : Quoting 0 s := ⟨nofun, nofun, rfl⟩
  have holeless : Holeless template := by simp [template, Holeless, ItemsHoleless]
  have outcome (limit : Nat) := quasiquote_of_holeless Host.none_monotone Host.none_equivariant true limit 0 s
    quoting 4 template holeless
  refine ⟨holeless, ?_, ?_⟩
  · obtain ⟨value, t, evaluated, rebuilt, scopes, _⟩ := (outcome 5).1 (by decide)
    obtain ⟨node, values, rfl, _, outer⟩ := rebuilt.exists_list (List.cons_ne_nil _ _)
    obtain _ | ⟨a, _ | ⟨vector, _ | ⟨empty, ⟨⟩⟩⟩⟩ := outer
    obtain ⟨inner, values, rfl, _, items⟩ := vector.exists_list (List.cons_ne_nil _ _)
    obtain _ | ⟨b, _ | ⟨c, ⟨⟩⟩⟩ := items
    rw [a.eq_of_itemless rfl, b.eq_of_itemless rfl, c.eq_of_itemless rfl, empty.eq_of_itemless rfl]
      at evaluated
    exact ⟨node, inner, t, evaluated, scopes⟩
  · obtain ⟨t, refused, scopes, _⟩ := (outcome 4).2 (by decide)
    exact ⟨t, refused, scopes⟩

end

end AnnotatedLisp
