import AnnotatedLisp.Proofs.Tail.Nesting
import Mathlib.Data.List.Basic

/-!
What a run requests, with stamps or without.

To evaluate a form, macro bodies, operands and the values of a `let` are evaluated first, each nested in
the evaluation that requests it. Which ones these are depends on what those before have come to, and on
nothing else: a run that is given the same outcomes for what it requests goes on in the same way, under
whatever limit. Evaluations that operations of the host start have a limit of their own and are not
counted here.
-/

namespace AnnotatedLisp

open Eval

/-- The context with another limit. -/
def Context.withLimit (ctx : Context) (limit : Nat) : Context :=
  { ctx with limit := limit }

/-- The second is the body of the macro that the first calls, its arguments bound and the call
stamped. -/
inductive Opens (ctx : Context) (a : Config) : Config → Prop
  | intro {name : String} {label : NodeId} {params body : Value} {outer inner : ScopeId} {s t : Store}
      (named : Expansion.callHead? a.form = some name)
      (bound : a.store.lookup name a.scope = some (.fn label params body outer true))
      (stamped : ctx.stampForm a.form
        (fun stamps => { stamps with applied := some (.fn label params body outer true) }) a.store =
          .ok () s)
      (entered : Params.newScope outer params (Expansion.callArgs a.form) s = .ok inner t) :
      Opens ctx a ⟨body, inner, t⟩

section Relations

variable (host : Host) (ctx : Context)

/-- One macro expansion leads from the first form to the second. -/
inductive Unfolds (a : Config) : Config → Prop
  | intro {c : Config} {form : Value} {t : Store} (opens : Opens ctx a c)
      (evaluated : c.Ends host ctx.nested (.ok form) t) : Unfolds a ⟨form, a.scope, t⟩

/-- The first form is resolved into the second, which is no macro call. -/
def Resolves (a b : Config) : Prop :=
  a.scope = b.scope ∧ ∃ fuel,
    (Run.evaluatorAt host fuel).resolve ctx a.scope a.form a.store = .ok b.form b.store

/-- A step of the first form, which is no macro call, leaves the second to be evaluated. -/
def Steps (a b : Config) : Prop :=
  ∃ fuel, (Run.evaluatorAt host fuel).step ctx a.scope a.form a.store =
    .ok (.tail b.form b.scope) b.store

/-- To take a step of the form `a`, which is no macro call, the form `c` is evaluated. -/
inductive StepRequests (a : Config) : Context → Config → Prop
  | operand {form : Value} {before after values : List Value} {t : Store}
      (here : Form.operands a.form = before ++ form :: after)
      (evaluated : EvaluatesAll host ctx.nested a.scope before a.store values t) :
      StepRequests a ctx.nested ⟨form, a.scope, t⟩
  | binding {node label : NodeId} {kind : SeqKind} {param form : Value}
      {before after body : List Value} {t : Store}
      (here : a.form = .seq node .list
        (.symbol "let" :: .seq label kind (before ++ param :: form :: after) :: body))
      (even : (before ++ param :: form :: after).length % 2 = 0)
      (bound : BindsPairs host ctx.nested a.store.scopes.size before
        (a.store.addScope (some a.scope)).2 t) :
      StepRequests a ctx.nested ⟨form, a.store.scopes.size, t⟩
  | macroexpansion {node : NodeId} {form : Value} {b c : Config}
      (here : a.form = .seq node .list [.symbol "macroexpand", form])
      (unfolded : Relation.ReflTransGen (Unfolds host ctx.nested) ⟨form, a.scope, a.store⟩ b)
      (opens : Opens ctx.nested b c) : StepRequests a ctx.nested.nested c

/-- To evaluate the form `a`, the form `c` is evaluated on a level further down. -/
inductive Requests : Config → Context → Config → Prop
  | macroBody {a b c : Config} (unfolded : Relation.ReflTransGen (Unfolds host ctx) a b)
      (opens : Opens ctx b c) : Requests a ctx.nested c
  | step {a b c : Config} {ctx' : Context} (resolved : Resolves host ctx a b)
      (requests : StepRequests host ctx b ctx' c) : Requests a ctx' c
  | later {a b c d : Config} {ctx' : Context} (resolved : Resolves host ctx a b)
      (steps : Steps host ctx b c) (requests : Requests c ctx' d) : Requests a ctx' d

/-- The second evaluation is a part of the first, at any nesting. -/
def Inside : Context × Config → Context × Config → Prop :=
  Relation.ReflTransGen fun p q => Requests host p.1 p.2 q.1 q.2

end Relations

section Plain

variable {host : Host} {ctx : Context} {a b c : Config}
  (plain : a.store.calledMacro? a.scope a.form = none)

include plain

theorem not_opens_of_plain : ¬ Opens ctx a c := by
  rintro ⟨named, bound, _⟩
  rw [Store.calledMacro?, named] at plain
  simp [bound] at plain

/-- A form that is no macro call requests no body of a macro. -/
theorem not_opens_of_unfolds (unfolded : Relation.ReflTransGen (Unfolds host ctx) a b) :
    ¬ Opens ctx b c := by
  obtain rfl | ⟨_, ⟨opens, _⟩, _⟩ := unfolded.cases_head
  · exact not_opens_of_plain plain
  · exact absurd opens (not_opens_of_plain plain)

end Plain

/-- What is requested is on another level and has all else in common with the run that requests it. -/
theorem Requests.context_eq {host : Host} {ctx ctx' : Context} {a c : Config}
    (requests : Requests host ctx a ctx' c) : ∃ depth, ctx' = { ctx with depth := depth } := by
  induction requests with
  | macroBody => exact ⟨_, rfl⟩
  | step _ requests => cases requests <;> exact ⟨_, rfl⟩
  | later _ _ _ ih => exact ih

namespace Eval

variable {α β : Type} {x y : Eval α} {f g : α → Eval β} {s : Store}

theorem bind_congr (first : x s = y s) (rest : ∀ a t, x s = .ok a t → f a t = g a t) :
    (x >>= f) s = (y >>= g) s := by
  cases h : x s with
  | ok a t => rw [bind_of_ok h, bind_of_ok (first.symm.trans h), rest a t h]
  | error e t => rw [bind_of_error h, bind_of_error (first.symm.trans h)]

theorem attempt_congr (same : x s = y s) : x.attempt s = y.attempt s := by
  rw [attempt, attempt, same]

end Eval

/-- The evaluator that evaluates the forms it comes upon in another way. -/
def Run.evaluatorBy (host : Host) (fuel : Nat) (enter : Context → Value → ScopeId → Eval Value) :
    Evaluator where
  enter := enter
  expand ctx form scope := Expansion.run enter ctx scope fuel form
  apply := Run.applyWith host (Run.loop host fuel)

section Locality

variable {host : Host} {ctx : Context} {enter : Context → Value → ScopeId → Eval Value}
  {limit fuel : Nat} {scope : ScopeId} {s : Store}

/-- The evaluation of the form has the same outcome in the other way, under the other limit. -/
def SameUnder (host : Host) (fuel : Nat) (enter : Context → Value → ScopeId → Eval Value)
    (limit : Nat) (ctx : Context) (c : Config) : Prop :=
  (Run.evaluatorAt host fuel).enter ctx c.form c.scope c.store =
    enter (ctx.withLimit limit) c.form c.scope c.store

theorem enterAll_congr {forms : List Value}
    (same : ∀ before form after values t, forms = before ++ form :: after →
      EvaluatesAll host ctx.nested scope before s values t →
      SameUnder host fuel enter limit ctx.nested ⟨form, scope, t⟩) :
    (Run.evaluatorAt host fuel).enterAll ctx scope forms s =
      (Run.evaluatorBy host fuel enter).enterAll (ctx.withLimit limit) scope forms s := by
  induction forms generalizing s with
  | nil => rfl
  | cons form forms ih =>
      rw [Evaluator.enterAll_cons, Evaluator.enterAll_cons]
      refine bind_congr (same [] form forms [] s rfl .nil) fun value t first => ?_
      refine bind_congr (ih fun before form' after values u here evaluated => ?_) fun _ _ _ => rfl
      exact same (form :: before) form' after (value :: values) u (by rw [here]; rfl)
        (.cons (evaluates_of_enter first) evaluated)

theorem enterEntries_congr {entries : List (MapKey × Value)}
    (same : ∀ before form after values t, entries.map Prod.snd = before ++ form :: after →
      EvaluatesAll host ctx.nested scope before s values t →
      SameUnder host fuel enter limit ctx.nested ⟨form, scope, t⟩) :
    (Run.evaluatorAt host fuel).enterEntries ctx scope entries s =
      (Run.evaluatorBy host fuel enter).enterEntries (ctx.withLimit limit) scope entries s := by
  induction entries generalizing s with
  | nil => rfl
  | cons entry entries ih =>
      rw [Evaluator.enterEntries, Evaluator.enterEntries, List.mapM_cons, List.mapM_cons]
      refine bind_congr (bind_congr (same [] _ _ [] s rfl .nil) fun _ _ _ => rfl)
        fun made t first => ?_
      obtain ⟨value, u, first, made⟩ := bind_eq_ok_iff.1 first
      cases made
      refine bind_congr (ih fun before form after values v here evaluated => ?_) fun _ _ _ => rfl
      exact same (entry.2 :: before) form after (value :: values) v
        (by rw [List.map_cons, here]; rfl) (.cons (evaluates_of_enter first) evaluated)

theorem bindPairs_congr : ∀ {pairs : List Value} {s : Store},
    (∀ before param form after t, pairs = before ++ param :: form :: after →
      BindsPairs host ctx.nested scope before s t →
      SameUnder host fuel enter limit ctx.nested ⟨form, scope, t⟩) →
    Special.bindPairs (Run.evaluatorAt host fuel) ctx scope pairs s =
      Special.bindPairs (Run.evaluatorBy host fuel enter) (ctx.withLimit limit) scope pairs s
  | [], _, _ | [_], _, _ => rfl
  | param :: form :: pairs, s, same => by
      rw [Special.bindPairs, Special.bindPairs]
      refine bind_congr (same [] param form pairs s rfl .nil) fun value t first => ?_
      refine bind_congr rfl fun _ u bound => ?_
      refine bindPairs_congr fun before param' form' after v here binds => ?_
      exact same (param :: form :: before) param' form' after v (by rw [here]; rfl)
        (.cons (evaluates_of_enter first) bound binds)

theorem expansion_congr {rounds : Nat} {form : Value}
    (same : ∀ b c, Relation.ReflTransGen (Unfolds host ctx) ⟨form, scope, s⟩ b → Opens ctx b c →
      SameUnder host fuel enter limit ctx.nested c) :
    Expansion.run (Run.evaluatorAt host fuel).enter ctx scope rounds form s =
      Expansion.run enter (ctx.withLimit limit) scope rounds form s := by
  -- The induction is on the expansions that may still be made.
  induction rounds generalizing form s with
  | zero => rfl
  | succ rounds ih =>
      rw [Expansion.run.eq_def, Expansion.run.eq_def]
      dsimp only
      cases named : Expansion.callHead? form with
      | none => rfl
      | some name =>
          refine bind_congr rfl fun binding? t looked => ?_
          cases looked
          cases bound : s.lookup name scope with
          | none => rfl
          | some binding =>
              refine bind_congr rfl fun _ t stamped => ?_
              split
              next label params body outer =>
                refine bind_congr rfl fun inner u entered => ?_
                have opens : Opens ctx ⟨form, scope, s⟩ ⟨body, inner, u⟩ :=
                  .intro named bound stamped entered
                refine bind_congr (same _ _ .refl opens) fun expanded v evaluated => ?_
                refine ih fun b c unfolded opens' => same b c (.head ?_ unfolded) opens'
                exact .intro opens (evaluates_of_enter evaluated)
              · rfl

section Steps

variable {node : NodeId} {head : Value} {args : List Value}
  (same : ∀ ctx' c, StepRequests host ctx ⟨.seq node .list (head :: args), scope, s⟩ ctx' c →
    SameUnder host fuel enter limit ctx' c)

include same

theorem sameUnder_first {operand : Value} {others : List Value}
    (here : Form.operands (.seq node .list (head :: args)) = operand :: others) :
    SameUnder host fuel enter limit ctx.nested ⟨operand, scope, s⟩ :=
  same _ _ (@StepRequests.operand host ctx ⟨.seq node .list (head :: args), scope, s⟩
    operand [] others [] s here .nil)

theorem enter_operand_congr {operand : Value} {f g : Value → Eval Step}
    (here : Form.operands (.seq node .list (head :: args)) = [operand])
    (rest : ∀ value t, f value t = g value t) :
    ((Run.evaluatorAt host fuel).enter ctx.nested operand scope >>= f) s =
      (enter (ctx.withLimit limit).nested operand scope >>= g) s :=
  bind_congr (sameUnder_first same here) fun value t _ => rest value t

theorem runDef_congr (named : Special.ofHead? head = some .define) :
    Special.runDef (Run.evaluatorAt host fuel) ctx scope args s =
      Special.runDef (Run.evaluatorBy host fuel enter) (ctx.withLimit limit) scope args s := by
  rw [Special.runDef.eq_def, Special.runDef.eq_def]
  split
  · exact enter_operand_congr same (by simp only [Form.operands, named]) fun _ _ => rfl
  · rfl

theorem runLet_congr (named : Special.ofHead? head = some .letIn) :
    Special.runLet (Run.evaluatorAt host fuel) ctx scope args s =
      Special.runLet (Run.evaluatorBy host fuel enter) (ctx.withLimit limit) scope args s := by
  obtain rfl := Special.eq_of_ofHead? named
  rw [Special.runLet.eq_def, Special.runLet.eq_def]
  split
  next label kind pairs body =>
    split
    · rfl
    next odd =>
      rw [bind_of_ok (newScope_apply scope s), bind_of_ok (newScope_apply scope s)]
      refine bind_congr (bindPairs_congr fun before param form after t here binds => ?_)
        fun _ _ _ => rfl
      subst here
      exact same _ _ (.binding rfl (by omega) binds)
  · rfl

theorem runMacroexpand_congr (named : Special.ofHead? head = some .macroexpand) :
    Special.runMacroexpand (Run.evaluatorAt host fuel) ctx scope args s =
      Special.runMacroexpand (Run.evaluatorBy host fuel enter) (ctx.withLimit limit) scope args s := by
  obtain rfl := Special.eq_of_ofHead? named
  rw [Special.runMacroexpand.eq_def, Special.runMacroexpand.eq_def]
  split
  · refine bind_congr (expansion_congr fun b c unfolded opens => ?_) fun _ _ _ => rfl
    exact same _ _ (.macroexpansion rfl unfolded opens)
  · rfl

theorem runTryBody_congr {body : Value} {clause : Option Value} (shape : args = body :: clause.toList)
    (named : Special.ofHead? head = some .attempt) :
    Special.runTryBody (Run.evaluatorAt host fuel) ctx scope body clause s =
      Special.runTryBody (Run.evaluatorBy host fuel enter) (ctx.withLimit limit) scope body clause
        s := by
  have here : Form.operands (.seq node .list (head :: args)) = [body] := by
    cases clause <;> subst shape <;> simp only [Form.operands, named, Option.toList]
  rw [Special.runTryBody, Special.runTryBody]
  exact bind_congr (attempt_congr (sameUnder_first same here)) fun _ _ _ => rfl

theorem runTry_congr (named : Special.ofHead? head = some .attempt) :
    Special.runTry (Run.evaluatorAt host fuel) ctx scope args s =
      Special.runTry (Run.evaluatorBy host fuel enter) (ctx.withLimit limit) scope args s := by
  rw [Special.runTry.eq_def, Special.runTry.eq_def]
  split
  · exact runTryBody_congr same rfl named
  · exact runTryBody_congr same rfl named
  · rfl

theorem runDo_congr (named : Special.ofHead? head = some .sequence) :
    Special.runDo (Run.evaluatorAt host fuel) ctx scope args s =
      Special.runDo (Run.evaluatorBy host fuel enter) (ctx.withLimit limit) scope args s := by
  obtain rfl | ⟨forms, last, rfl⟩ := List.eq_nil_or_concat' args
  · rfl
  · have here : Form.operands (.seq node .list (head :: (forms ++ [last]))) = forms := by
      simp only [Form.operands, named, List.dropLast_concat]
    rw [Evaluator.runDo_append, Evaluator.runDo_append]
    refine bind_congr (enterAll_congr fun before form after values t split evaluated => ?_)
      fun _ _ _ => rfl
    exact same _ _ (.operand (here.trans split) evaluated)

theorem choose_congr {condition yes : Value} {no : Option Value}
    (shape : args = condition :: yes :: no.toList)
    (named : Special.ofHead? head = some .conditional) :
    Special.choose (Run.evaluatorAt host fuel) ctx scope condition yes no s =
      Special.choose (Run.evaluatorBy host fuel enter) (ctx.withLimit limit) scope condition yes no
        s := by
  have here : Form.operands (.seq node .list (head :: args)) = [condition] := by
    cases no <;> subst shape <;> simp only [Form.operands, named, Option.toList]
  exact enter_operand_congr same here fun _ _ => rfl

theorem runIf_congr (named : Special.ofHead? head = some .conditional) :
    Special.runIf (Run.evaluatorAt host fuel) ctx scope args s =
      Special.runIf (Run.evaluatorBy host fuel enter) (ctx.withLimit limit) scope args s := by
  rw [Special.runIf.eq_def, Special.runIf.eq_def]
  split
  · exact choose_congr same rfl named
  · exact choose_congr same rfl named
  · rfl

theorem runEvalWhenExecute_congr (named : Special.ofHead? head = some .evalWhenExecute) :
    Special.runEvalWhenExecute (Run.evaluatorAt host fuel) ctx scope args s =
      Special.runEvalWhenExecute (Run.evaluatorBy host fuel enter) (ctx.withLimit limit) scope args s := by
  rw [Special.runEvalWhenExecute.eq_def, Special.runEvalWhenExecute.eq_def]
  split
  · exact enter_operand_congr same (by simp only [Form.operands, named]) fun _ _ => rfl
  · rfl

theorem special_congr {special : Special} (named : Special.ofHead? head = some special) :
    special.run (Run.evaluatorAt host fuel) ctx scope args s =
      special.run (Run.evaluatorBy host fuel enter) (ctx.withLimit limit) scope args s := by
  cases special with
  | define => exact runDef_congr same named
  | letIn => exact runLet_congr same named
  | quote | quasiquote | makeMacro | makeFn => rfl
  | macroexpand => exact runMacroexpand_congr same named
  | attempt => exact runTry_congr same named
  | sequence => exact runDo_congr same named
  | conditional => exact runIf_congr same named
  | evalWhenExecute => exact runEvalWhenExecute_congr same named

/-- The head of a call and its arguments are operands. What is applied has no limit. -/
theorem stepCall_congr (ordinary : Special.ofHead? head = none) :
    (Run.evaluatorAt host fuel).stepCall ctx scope node head args s =
      (Run.evaluatorBy host fuel enter).stepCall (ctx.withLimit limit) scope node head args s := by
  have here : Form.operands (.seq node .list (head :: args)) = head :: args := by
    simp only [Form.operands, ordinary]
  rw [Evaluator.stepCall, Evaluator.stepCall]
  refine bind_congr (sameUnder_first same here) fun callee t called => ?_
  refine bind_congr (enterAll_congr fun before form after values u split evaluated => ?_)
    fun _ _ _ => rfl
  subst split
  have called := evaluates_of_enter called
  exact same _ _ (@StepRequests.operand host ctx ⟨.seq node .list (head :: _), scope, s⟩ form
    (head :: before) after (callee :: values) u here (.cons called evaluated))

end Steps

/-- A step depends on a limit, and on how forms are evaluated, only through the evaluations that it
requests. -/
theorem step_congr {form : Value}
    (same : ∀ ctx' c, StepRequests host ctx ⟨form, scope, s⟩ ctx' c →
      SameUnder host fuel enter limit ctx' c) :
    (Run.evaluatorAt host fuel).step ctx scope form s =
      (Run.evaluatorBy host fuel enter).step (ctx.withLimit limit) scope form s := by
  cases form with
  | seq node kind items =>
      cases kind with
      | list =>
          cases items with
          | nil => rfl
          | cons head args =>
              cases named : Special.ofHead? head with
              | some special =>
                  rw [Evaluator.step_special _ _ _ named, Evaluator.step_special _ _ _ named]
                  exact special_congr same named
              | none =>
                  rw [Evaluator.step_call _ _ _ named, Evaluator.step_call _ _ _ named]
                  exact stepCall_congr same named
      | vector =>
          refine bind_congr (bind_congr (enterAll_congr ?_) fun _ _ _ => rfl) fun _ _ _ => rfl
          exact fun before form after values t split evaluated => same _ _ (.operand split evaluated)
  | map node entries =>
      refine bind_congr (bind_congr (enterEntries_congr ?_) fun _ _ _ => rfl) fun _ _ _ => rfl
      exact fun before form after values t split evaluated => same _ _ (.operand split evaluated)
  | _ => rfl

theorem resolve_congr {form : Value}
    (same : ∀ b c, Relation.ReflTransGen (Unfolds host ctx) ⟨form, scope, s⟩ b → Opens ctx b c →
      SameUnder host fuel enter limit ctx.nested c) :
    (Run.evaluatorAt host fuel).resolve ctx scope form s =
      (Run.evaluatorBy host fuel enter).resolve (ctx.withLimit limit) scope form s := by
  rw [Evaluator.resolve.eq_def, Evaluator.resolve.eq_def]
  split
  · exact bind_congr (expansion_congr same) fun _ _ _ => rfl
  · rfl

end Locality

end AnnotatedLisp
