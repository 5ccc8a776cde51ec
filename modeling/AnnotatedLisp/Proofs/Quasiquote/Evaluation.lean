import AnnotatedLisp.Proofs.Annotation
import AnnotatedLisp.Proofs.Quasiquote.Fill
import AnnotatedLisp.Proofs.Tail.Step

/-!
Quasiquotation builds what its template describes.

A quasiquoted template is replaced by calls that build it, and evaluating these comes to what filling the
template comes to. The proof follows the filling: at each place of the template it is known which form was
put there, whatever nodes that form has, and how it is evaluated. No stamps are made at first; that they
make no difference is known already.
-/

namespace AnnotatedLisp

open Eval Filter

theorem calledMacro?_of_macroless {s : Store} {name : String} {scope : ScopeId}
    (macroless : s.Macroless name scope) (node : NodeId) (args : List Value) :
    s.calledMacro? scope (.seq node .list (.symbol name :: args)) = none := by
  simp only [Store.calledMacro?, Expansion.callHead?]
  split
  next label params body outer bound => exact absurd bound (macroless label params body outer)
  · rfl

theorem Store.lookup_withNodes (s : Store) (count : Nat) (name : String) (scope : ScopeId) :
    (s.withNodes count).lookup name scope = s.lookup name scope :=
  Store.lookup_congr (s := s.withNodes count) (t := s) rfl name scope

theorem Store.Macroless.withNodes {s : Store} {name : String} {scope : ScopeId}
    (macroless : s.Macroless name scope) (count : Nat) : (s.withNodes count).Macroless name scope := by
  intro label params body outer
  rw [Store.lookup_withNodes]
  exact macroless label params body outer

/-- Of several forms the first that fails decides. -/
theorem eventually_enterAll_error {host : Host} (monotone : host.Monotone) {ctx : Context}
    {scope : ScopeId} {before values : List Value} {form : Value} {error : Error} {s t u : Store}
    (evaluated : EvaluatesAll host ctx.nested scope before s values t)
    (failed : Evaluates host ctx.nested form scope t (.error error) u) (after : List Value) :
    ∀ᶠ fuel in atTop, (Run.evaluatorAt host fuel).enterAll ctx scope (before ++ form :: after) s =
      .error (.error error) u := by
  induction evaluated with
  | nil =>
      filter_upwards [eventually_enter_error monotone failed] with fuel failed
      rw [List.nil_append, Evaluator.enterAll_cons, bind_of_error failed]
  | cons first _ ih =>
      filter_upwards [eventually_enter_value monotone first, ih failed] with fuel value failed
      rw [List.cons_append, Evaluator.enterAll_cons, bind_of_ok value, bind_of_error failed]

section Forms

variable {host : Host} (monotone : host.Monotone) {ctx : Context} (off : ctx.annotate = false)
  (below : ctx.depth < ctx.limit) {scope : ScopeId} {s t u v : Store}

include monotone off below

theorem evaluates_of_done {form value : Value} (plain : s.calledMacro? scope form = none)
    (steps : ∀ᶠ fuel in atTop,
      (Run.evaluatorAt host fuel).step ctx scope form s = .ok (.done value) t) :
    Evaluates host ctx form scope s (.ok value) t := by
  refine (evaluate_growing monotone ctx form scope).ends_iff_eventually.2
    (eventually_of_succ (eventually_of_succ ?_))
  filter_upwards [(tendsto_add_atTop_nat 1).eventually steps] with fuel step
  rw [attempt_eq_value_iff, evaluate_eq_loop below,
    loop_of_macroexpand off (Expansion.run_of_plain off plain fuel), bind_of_ok step]
  rfl

theorem evaluates_of_step_error {form : Value} {error : Error}
    (plain : s.calledMacro? scope form = none)
    (steps : ∀ᶠ fuel in atTop,
      (Run.evaluatorAt host fuel).step ctx scope form s = .error (.error error) t) :
    Evaluates host ctx form scope s (.error error) t := by
  refine (evaluate_growing monotone ctx form scope).ends_iff_eventually.2
    (eventually_of_succ (eventually_of_succ ?_))
  filter_upwards [(tendsto_add_atTop_nat 1).eventually steps] with fuel step
  rw [attempt_eq_error_iff, evaluate_eq_loop below,
    loop_of_macroexpand off (Expansion.run_of_plain off plain fuel), bind_of_error step]

theorem evaluates_symbol {name : String} {value : Value} (bound : s.lookup name scope = some value) :
    Evaluates host ctx (.symbol name) scope s (.ok value) s := by
  refine evaluates_of_done monotone off below (calledMacro?_of_not_list rfl) (.of_forall fun fuel => ?_)
  change (Eval.lookup scope name >>= fun value => pure (Step.done value)) s = _
  rw [bind_of_ok (lookup_of_bound bound), pure_apply]

theorem evaluates_quote (plain : s.Macroless "quote" scope) (node : NodeId) (form : Value) :
    Evaluates host ctx (.seq node .list [.symbol "quote", form]) scope s (.ok form) s :=
  evaluates_of_done monotone off below (calledMacro?_of_macroless plain node _)
    (.of_forall fun _ => rfl)

/-- A call fails as what is called fails. -/
theorem evaluates_call_of_head_error {head : Value} {args : List Value} {node : NodeId} {error : Error}
    (ordinary : Special.ofHead? head = none)
    (plain : s.calledMacro? scope (.seq node .list (head :: args)) = none)
    (failed : Evaluates host ctx.nested head scope s (.error error) t) :
    Evaluates host ctx (.seq node .list (head :: args)) scope s (.error error) t := by
  refine evaluates_of_step_error monotone off below plain ?_
  filter_upwards [eventually_enter_error monotone failed] with fuel failed
  rw [Evaluator.step_call _ _ _ ordinary]
  exact bind_of_error failed

end Forms

section Calls

variable {host : Host} (monotone : host.Monotone) {ctx : Context} (off : ctx.annotate = false)
  (below : ctx.nested.depth < ctx.limit) {scope : ScopeId} {s t u v : Store} {name : String}
  {op : CoreOp} (ordinary : Special.ofHead? (.symbol name) = none)
  (bound : s.lookup name scope = some (.native (.core op)))

include monotone off below ordinary bound

theorem evaluates_core_call {args values : List Value} {value : Value}
    (evaluated : EvaluatesAll host ctx.nested scope args s values t)
    (applied : op.operation.call values t = .ok value u) (node : NodeId) :
    Evaluates host ctx (.seq node .list (.symbol name :: args)) scope s (.ok value) u := by
  refine evaluates_of_done monotone off (Nat.lt_of_succ_lt below)
    (calledMacro?_of_macroless (Store.macroless_of_native bound) node args) ?_
  have off' : ctx.nested.annotate = false := off
  have head := eventually_enter_value monotone (evaluates_symbol monotone off' below bound)
  filter_upwards [head, eventually_enterAll monotone evaluated] with fuel head values
  have stepped := (Run.evaluatorAt host fuel).step_call ctx scope ordinary node args
  rw [stepped, Evaluator.stepCall, bind_of_ok head, bind_of_ok values, stamp_of_off off,
    pure_bind_apply]
  exact bind_of_ok applied

/-- A call fails as the first of its arguments that fails. -/
theorem evaluates_core_call_error {before after values : List Value} {form : Value} {error : Error}
    (evaluated : EvaluatesAll host ctx.nested scope before s values t)
    (failed : Evaluates host ctx.nested form scope t (.error error) u) (node : NodeId) :
    Evaluates host ctx (.seq node .list (.symbol name :: (before ++ form :: after))) scope s
      (.error error) u := by
  refine evaluates_of_step_error monotone off (Nat.lt_of_succ_lt below)
    (calledMacro?_of_macroless (Store.macroless_of_native bound) node _) ?_
  have off' : ctx.nested.annotate = false := off
  have head := eventually_enter_value monotone (evaluates_symbol monotone off' below bound)
  filter_upwards [head, eventually_enterAll_error monotone evaluated failed after] with fuel head args
  have stepped := (Run.evaluatorAt host fuel).step_call ctx scope ordinary node
    (before ++ form :: after)
  rw [stepped, Evaluator.stepCall, bind_of_ok head, bind_of_error args]

end Calls

theorem cons_apply {head tail : Value} {values : List Value} (elements : tail.elements? = some values)
    (s : Store) : CoreOp.cons.operation.call [head, tail] s =
      .ok (.seq s.nextNode .list (head :: values)) (s.withNodes 1) := by
  have converted : (Param.sequence .value).convert tail = .ok values := by
    rw [Param.convert, elements]
    rfl
  have converted : CoreOp.cons.operation.signature.convert [head, tail] = .ok (head, values, ()) := by
    change Signature.convertArgs [.value, .sequence .value] none [head, tail] = _
    rw [Signature.convertArgs, Signature.convertArgs, converted]
    rfl
  change (Eval.ofExcept (CoreOp.cons.operation.signature.convert [head, tail]) >>= _) s = _
  rw [converted]
  rfl

theorem concat_apply {first second : Value} {values values' : List Value}
    (elements : first.elements? = some values) (elements' : second.elements? = some values')
    (s : Store) : CoreOp.concat.operation.call [first, second] s =
      .ok (.seq s.nextNode .list (values ++ values')) (s.withNodes 1) := by
  have joined : Operation.concatenation [first, second] = .ok (values ++ values') := by
    simp only [Operation.concatenation, elements, elements', Except.map, List.append_nil]
  change (Eval.ofExcept (Operation.concatenation [first, second]) >>= _) s = _
  rw [joined]
  rfl

section Filling

variable (host : Host) (scope : ScopeId)

/-- Wherever and whenever the form that builds the template was made, evaluating it comes to what filling
the template comes to. -/
def Builds (ctx : Context) (template : Value) (s : Store) (result : Except Error Value) (t : Store) :
    Prop :=
  ctx.annotate = false → ∀ form s₀ s₁, Template.builder template s₀ = .ok form s₁ →
    Evaluates host ctx form scope s result t

/-- What evaluating a form that builds items comes to: the values as the items of a sequence, which is a
new list if any item had to be put into it. -/
def AnswersItems (ctx : Context) (form : Value) (s : Store) :
    Except Error (List Value × Nat) → Store → Prop
  | .ok (values, made), t =>
    ∃ value, Evaluates host ctx form scope s (.ok value) (t.withNodes made) ∧
      value.elements? = some values ∧
      (0 < made → value = .seq (t.nextNode + made - 1) .list values)
  | .error error, t => Evaluates host ctx form scope s (.error error) t

def BuildsItems (ctx : Context) (items : List Value) (s : Store)
    (result : Except Error (List Value × Nat)) (t : Store) : Prop :=
  ctx.annotate = false → ∀ form s₀ s₁, Template.itemsBuilder items s₀ = .ok form s₁ →
    AnswersItems host scope ctx form s result t

/-- What evaluating the first argument of an operation comes to: a value of which the operation puts
what was contributed before the elements of its second argument. -/
def AnswersFirst (ctx : Context) (op : CoreOp) (form : Value) (s : Store) :
    Except Error (List Value) → Store → Prop
  | .ok values, t =>
    ∃ value, Evaluates host ctx form scope s (.ok value) t ∧
      ∀ rest values' u, rest.elements? = some values' →
        op.operation.call [value, rest] u =
          .ok (.seq u.nextNode .list (values ++ values')) (u.withNodes 1)
  | .error error, t => Evaluates host ctx form scope s (.error error) t

/-- Before further items, an item is built into a call of `cons` or `concat`. -/
def BuildsFirst (ctx : Context) (item : Value) (s : Store) (result : Except Error (List Value))
    (t : Store) : Prop :=
  ctx.annotate = false → ∀ items, (∀ form, item :: items ≠ [.symbol "unquote", form]) →
    ∀ form s₀ s₁, Template.itemsBuilder (item :: items) s₀ = .ok form s₁ →
      ∃ (op : CoreOp) (node : NodeId) (first rest : Value) (s₂ s₃ : Store),
        (op = .cons ∨ op = .concat) ∧ form = .seq node .list [.symbol op.name, first, rest] ∧
        Template.itemsBuilder items s₂ = .ok rest s₃ ∧ AnswersFirst host scope ctx op first s result t

variable {host scope} {ctx : Context} {label : NodeId} {kind : SeqKind} {form item template : Value}
  {items : List Value} {s t u : Store} {error : Error}

theorem Building.lookup (building : Building ctx scope s) {op : CoreOp}
    (joins : op = .cons ∨ op = .concat) : s.lookup op.name scope = some (.native (.core op)) := by
  obtain rfl | rfl := joins
  · exact building.cons
  · exact building.concat

theorem ofHead?_of_joins {op : CoreOp} (joins : op = .cons ∨ op = .concat) :
    Special.ofHead? (.symbol op.name) = none := by
  obtain rfl | rfl := joins <;> rfl

theorem FillsItems.made_pos {values : List Value} {made : Nat}
    (filled : FillsItems host scope ctx items s (.ok (values, made)) t) (inhabited : items ≠ [])
    (noHole : ∀ form, items ≠ [.symbol "unquote", form]) : 0 < made := by
  cases filled with
  | nil => exact absurd rfl inhabited
  | tail => exact absurd rfl (noHole _)
  | cons => exact Nat.succ_pos _

theorem builds_hole {result : Except Error Value}
    (evaluated : Evaluates host ctx form scope s result t) :
    Builds host scope ctx (.seq label kind [.symbol "unquote", form]) s result t := by
  intro _ form s₀ s₁ built
  rw [Template.builder_hole] at built
  cases built
  exact evaluated

theorem builds_items {values : List Value} {made : Nat} (inhabited : items ≠ [])
    (noHole : ∀ form, items ≠ [.symbol "unquote", form])
    (filled : FillsItems host scope ctx items s (.ok (values, made)) t)
    (builds : BuildsItems host scope ctx items s (.ok (values, made)) t) :
    Builds host scope ctx (.seq label kind items) s
      (.ok (.seq (t.nextNode + made - 1) .list values)) (t.withNodes made) := by
  intro off form s₀ s₁ built
  rw [Template.builder_items inhabited noHole] at built
  obtain ⟨value, evaluated, _, new⟩ := builds off form s₀ s₁ built
  rwa [new (filled.made_pos inhabited noHole)] at evaluated

theorem builds_itemsFailed (inhabited : items ≠ [])
    (noHole : ∀ form, items ≠ [.symbol "unquote", form])
    (builds : BuildsItems host scope ctx items s (.error error) t) :
    Builds host scope ctx (.seq label kind items) s (.error error) t := by
  intro off form s₀ s₁ built
  rw [Template.builder_items inhabited noHole] at built
  exact builds off form s₀ s₁ built

theorem buildsItems_tail {value : Value} {values : List Value}
    (evaluated : Evaluates host ctx form scope s (.ok value) t)
    (elements : value.elements? = some values) :
    BuildsItems host scope ctx [.symbol "unquote", form] s (.ok (values, 0)) t := by
  intro _ form s₀ s₁ built
  rw [Template.itemsBuilder_tail] at built
  cases built
  exact ⟨value, evaluated, elements, nofun⟩

theorem buildsItems_tailFailed (evaluated : Evaluates host ctx form scope s (.error error) t) :
    BuildsItems host scope ctx [.symbol "unquote", form] s (.error error) t := by
  intro _ form s₀ s₁ built
  rw [Template.itemsBuilder_tail] at built
  cases built
  exact evaluated

theorem buildsFirst_splice {value : Value} {values : List Value}
    (evaluated : Evaluates host ctx form scope s (.ok value) t)
    (elements : value.elements? = some values) :
    BuildsFirst host scope ctx (.seq label kind [.symbol "splice-unquote", form]) s (.ok values) t := by
  intro _ items _ joined s₀ s₁ built
  obtain ⟨node, rest, s₃, rfl, made⟩ := Template.joined_splice built
  exact ⟨.concat, node, form, rest, s₀, s₃, .inr rfl, rfl, made, value, evaluated,
    fun _ _ _ elements' => concat_apply elements elements' _⟩

theorem buildsFirst_spliceFailed (evaluated : Evaluates host ctx form scope s (.error error) t) :
    BuildsFirst host scope ctx (.seq label kind [.symbol "splice-unquote", form]) s
      (.error error) t := by
  intro _ items _ joined s₀ s₁ built
  obtain ⟨node, rest, s₃, rfl, made⟩ := Template.joined_splice built
  exact ⟨.concat, node, form, rest, s₀, s₃, .inr rfl, rfl, made, evaluated⟩

theorem buildsFirst_item {value : Value}
    (noSplice : ∀ label kind form, item ≠ .seq label kind [.symbol "splice-unquote", form])
    (builds : Builds host scope ctx item s (.ok value) t) :
    BuildsFirst host scope ctx item s (.ok [value]) t := by
  intro off items noHole form s₀ s₁ built
  obtain ⟨node, first, rest, s₂, s₃, rfl, made, made'⟩ :=
    Template.joined_item noHole noSplice built
  exact ⟨.cons, node, first, rest, s₂, s₃, .inl rfl, rfl, made', value, builds off first s₀ s₂ made,
    fun _ _ _ elements => cons_apply elements _⟩

theorem buildsFirst_itemFailed
    (noSplice : ∀ label kind form, item ≠ .seq label kind [.symbol "splice-unquote", form])
    (builds : Builds host scope ctx item s (.error error) t) :
    BuildsFirst host scope ctx item s (.error error) t := by
  intro off items noHole form s₀ s₁ built
  obtain ⟨node, first, rest, s₂, s₃, rfl, made, made'⟩ :=
    Template.joined_item noHole noSplice built
  exact ⟨.cons, node, first, rest, s₂, s₃, .inl rfl, rfl, made', builds off first s₀ s₂ made⟩

section

variable (monotone : host.Monotone)

include monotone

theorem builds_whole (building : Building ctx scope s) (itemless : template.items?.getD [] = []) :
    Builds host scope ctx template s (.ok template) s := by
  intro off form s₀ s₁ built
  rw [Template.builder_of_itemless itemless, Template.call_apply] at built
  cases built
  exact evaluates_quote monotone off building.below building.quote s₀.nextNode template

theorem buildsItems_nil (building : Building ctx scope s) :
    BuildsItems host scope ctx [] s (.ok ([], 0)) s := by
  intro off form s₀ s₁ built
  cases built
  exact ⟨_, evaluates_quote monotone off building.below building.quote _ _, rfl, nofun⟩

theorem buildsItems_cons {first rest : List Value} {made : Nat}
    (building : Building ctx.nested scope s)
    (noHole : ∀ form, item :: items ≠ [.symbol "unquote", form])
    (head : BuildsFirst host scope ctx.nested item s (.ok first) t)
    (tail : BuildsItems host scope ctx.nested items t (.ok (rest, made)) u) :
    BuildsItems host scope ctx (item :: items) s (.ok (first ++ rest, made + 1)) u := by
  intro off form s₀ s₁ built
  obtain ⟨op, node, a, b, s₂, s₃, joins, rfl, built', value, evaluated, joined⟩ :=
    head off items noHole form s₀ s₁ built
  obtain ⟨value', evaluated', elements, _⟩ := tail off b s₂ s₃ built'
  -- The last of the nodes made for the items is the one that this item is put into.
  refine ⟨.seq (u.nextNode + made) .list (first ++ rest), ?_, rfl, fun _ => rfl⟩
  rw [← Store.withNodes_withNodes]
  exact evaluates_core_call monotone off building.below (ofHead?_of_joins joins)
    (building.lookup joins) (.cons evaluated (.cons evaluated' .nil))
    (joined value' rest (u.withNodes made) elements) node

theorem buildsItems_firstFailed (building : Building ctx.nested scope s)
    (noHole : ∀ form, item :: items ≠ [.symbol "unquote", form])
    (head : BuildsFirst host scope ctx.nested item s (.error error) t) :
    BuildsItems host scope ctx (item :: items) s (.error error) t := by
  intro off form s₀ s₁ built
  obtain ⟨op, node, a, b, s₂, s₃, joins, rfl, _, failed⟩ := head off items noHole form s₀ s₁ built
  exact evaluates_core_call_error monotone off building.below (ofHead?_of_joins joins)
    (building.lookup joins) .nil failed node

theorem buildsItems_restFailed {first : List Value} (building : Building ctx.nested scope s)
    (noHole : ∀ form, item :: items ≠ [.symbol "unquote", form])
    (head : BuildsFirst host scope ctx.nested item s (.ok first) t)
    (tail : BuildsItems host scope ctx.nested items t (.error error) u) :
    BuildsItems host scope ctx (item :: items) s (.error error) u := by
  intro off form s₀ s₁ built
  obtain ⟨op, node, a, b, s₂, s₃, joins, rfl, built', value, evaluated, _⟩ :=
    head off items noHole form s₀ s₁ built
  exact evaluates_core_call_error monotone off building.below (ofHead?_of_joins joins)
    (building.lookup joins) (.cons evaluated .nil) (tail off b s₂ s₃ built') node

/-- One rule of filling after the other. -/
theorem builds_of_fills {result : Except Error Value}
    (filled : Fills host scope ctx template s result t) :
    Builds host scope ctx template s result t :=
  @Fills.rec host scope (fun ctx template s result t _ => Builds host scope ctx template s result t)
    (fun ctx items s result t _ => BuildsItems host scope ctx items s result t)
    (fun ctx item s result t _ => BuildsFirst host scope ctx item s result t)
    (builds_whole monotone) builds_hole builds_items
    (fun inhabited noHole _ => builds_itemsFailed inhabited noHole)
    (buildsItems_nil monotone) buildsItems_tail buildsItems_tailFailed
    (fun building noHole _ _ => buildsItems_cons monotone building noHole)
    (fun building noHole _ => buildsItems_firstFailed monotone building noHole)
    (fun building noHole _ _ => buildsItems_restFailed monotone building noHole)
    buildsFirst_splice buildsFirst_spliceFailed (fun noSplice _ => buildsFirst_item noSplice)
    (fun noSplice _ => buildsFirst_itemFailed noSplice) ctx template s result t filled

end

end Filling

/-- Evaluating a quasiquoted template comes to what filling the template comes to, once the form that
builds it is made: to the value that the template describes if the holes have values that fit, each hole
being evaluated once and from left to right, and otherwise to the error of the first hole that fails. Making
stamps as well changes nothing but the stamps. -/
theorem evaluates_quasiquote (host : Host) (monotone : host.Monotone) (ctx : Context)
    (off : ctx.annotate = false) (scope : ScopeId) (s : Store) (building : Building ctx scope s)
    (node : NodeId) (template : Value) (result : Except Error Value) (t : Store)
    (filled : Fills host scope ctx template (s.withNodes (Template.nodes template)) result t) :
    Evaluates host ctx (.seq node .list [.symbol "quasiquote", template]) scope s result t ∧
      (host = Host.none → ∃ stamps,
        Evaluates host { ctx with annotate := true }
          (.seq node .list [.symbol "quasiquote", template]) scope s result
          { t with stamps := stamps }) := by
  obtain ⟨form, built⟩ := Template.builder_apply template s
  have tail : TailStep host ctx ⟨.seq node .list [.symbol "quasiquote", template], scope, s⟩
      ⟨form, scope, s.withNodes (Template.nodes template)⟩ :=
    ⟨calledMacro?_of_macroless building.quasiquote node [template], .quasiquote built⟩
  have evaluates : Evaluates host ctx (.seq node .list [.symbol "quasiquote", template]) scope s
      result t :=
    (ends_iff_of_tailStep monotone off building.below tail).2
      (builds_of_fills monotone filled off form s _ built)
  refine ⟨evaluates, ?_⟩
  rintro rfl
  have silent : { ctx with annotate := false } = ctx := by rw [← off]
  rw [← silent] at evaluates
  exact ((annotation_transparent ctx _ scope s t result).1.1 evaluates).2

/-- A hole that defines a name, a splice, and a tail that uses the name:
`(a [b (unquote (def x nil))] (splice-unquote xs) unquote x)` describes `(a (b nil) true)`. -/
theorem quasiquote_of_effects :
    let names (x : Entries String Value) : Store :=
      ⟨#[⟨[("concat", .native (.core .concat)), ("cons", .native (.core .cons))] ++ x ++
        [("xs", .seq 0 .vector [.bool true])], none⟩], 6, ∅, ""⟩
    let definition : Value := .seq 1 .list [.symbol "def", .symbol "x", .nil]
    let template : Value := .seq 2 .list [.symbol "a",
      .seq 3 .vector [.symbol "b", .seq 4 .list [.symbol "unquote", definition]],
      .seq 5 .list [.symbol "splice-unquote", .symbol "xs"], .symbol "unquote", .symbol "x"]
    Evaluates Host.none (.within false 8) (.seq 5 .list [.symbol "quasiquote", template]) 0 (names [])
      (.ok (.seq 19 .list [.symbol "a", .seq 16 .list [.symbol "b", .nil], .bool true]))
      { names [("x", .nil)] with nextNode := 20 } := by
  intro names definition template
  let ctx : Context := .within false 8
  have before : ∀ n ctx, ctx.depth < ctx.limit → Building ctx 0 ((names []).withNodes n) :=
    fun _ _ below => ⟨below, nofun, nofun, rfl, rfl⟩
  have after : ∀ n ctx, ctx.depth < ctx.limit →
      Building ctx 0 ((names [("x", .nil)]).withNodes n) :=
    fun _ _ below => ⟨below, nofun, nofun, rfl, rfl⟩
  have symbol : ∀ name n ctx, ctx.depth < ctx.limit → Contributes Host.none 0 ctx (.symbol name)
      ((names []).withNodes n) (.ok [.symbol name]) ((names []).withNodes n) :=
    fun _ n ctx below => .item nofun (.whole (before n ctx below) rfl)
  have hole : Contributes Host.none 0 ctx.nested.nested.nested.nested
      (.seq 4 .list [.symbol "unquote", definition])
      ((names []).withNodes 9) (.ok [.nil]) ((names [("x", .nil)]).withNodes 9) :=
    .item (by simp) (.hole ⟨3, rfl⟩)
  have inner : FillsItems Host.none 0 ctx.nested.nested
      [.symbol "b", .seq 4 .list [.symbol "unquote", definition]] ((names []).withNodes 9)
      (.ok ([.symbol "b", .nil], 2)) ((names [("x", .nil)]).withNodes 9) :=
    .cons (before 9 _ (by decide)) (by simp) (symbol "b" 9 _ (by decide))
      (.cons (before 9 _ (by decide)) (by simp) hole (.nil (after 9 _ (by decide))))
  have nested : Contributes Host.none 0 ctx.nested.nested
      (.seq 3 .vector [.symbol "b", .seq 4 .list [.symbol "unquote", definition]])
      ((names []).withNodes 9) (.ok [.seq 16 .list [.symbol "b", .nil]])
      ((names [("x", .nil)]).withNodes 11) := .item (by simp) (.items (by simp) (by simp) inner)
  have splice : Contributes Host.none 0 ctx.nested.nested.nested
      (.seq 5 .list [.symbol "splice-unquote", .symbol "xs"]) ((names [("x", .nil)]).withNodes 11)
      (.ok [.bool true]) ((names [("x", .nil)]).withNodes 11) := .splice ⟨2, rfl⟩ rfl
  have tail : FillsItems Host.none 0 ctx.nested.nested.nested [.symbol "unquote", .symbol "x"]
      ((names [("x", .nil)]).withNodes 11) (.ok ([], 0)) ((names [("x", .nil)]).withNodes 11) :=
    .tail ⟨2, rfl⟩ rfl
  have outer : FillsItems Host.none 0 ctx
      [.symbol "a", .seq 3 .vector [.symbol "b", .seq 4 .list [.symbol "unquote", definition]],
        .seq 5 .list [.symbol "splice-unquote", .symbol "xs"], .symbol "unquote", .symbol "x"]
      ((names []).withNodes 9) (.ok ([.symbol "a", .seq 16 .list [.symbol "b", .nil], .bool true], 3))
      ((names [("x", .nil)]).withNodes 11) :=
    .cons (before 9 _ (by decide)) (by simp) (symbol "a" 9 _ (by decide))
      (.cons (before 9 _ (by decide)) (by simp) nested
        (.cons (after 11 _ (by decide)) (by simp) splice tail))
  exact (evaluates_quasiquote Host.none Host.none_monotone ctx rfl 0 (names [])
    (before 0 _ (by decide)) 5 template _ _ (.items (by simp) (by simp) outer)).1

end AnnotatedLisp
