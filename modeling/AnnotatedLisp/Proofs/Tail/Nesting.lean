import AnnotatedLisp.Proofs.Tail.Step
import Mathlib.Logic.Relation

/-!
The evaluations inside a run.

A run passes through forms on its own level, by macro expansions and tail steps, and each of them asks
for evaluations nested more deeply: its operands, the values of a `let`, the bodies of macros. What one
form asks for depends on the outcomes of what it asked for before; the facts here read that off the
computations that the evaluator runs.
-/

namespace AnnotatedLisp

open Eval

/-- The forms that the step of a form evaluates in order, in its own scope. -/
def Form.operands : Value → List Value
  | .seq _ .list (head :: args) =>
    match Special.ofHead? head, args with
    | none, args => head :: args
    | some .define, [.symbol _, form] => [form]
    | some .attempt, [body] => [body]
    | some .attempt, [body, _] => [body]
    | some .sequence, forms => forms.dropLast
    | some .conditional, [condition, _] => [condition]
    | some .conditional, [condition, _, _] => [condition]
    | some .evalWhenExecute, [form] => [form]
    | _, _ => []
  | .seq _ .vector items => items
  | .map _ entries => entries.map Prod.snd
  | _ => []

/-- The second is the body of the macro that the first calls, with the arguments bound. -/
def OpensMacro (a c : Config) : Prop :=
  ∃ params outer, a.store.calledMacro? a.scope a.form = some (params, c.form, outer) ∧
    Params.newScope outer params (Expansion.callArgs a.form) a.store = .ok c.scope c.store

section Relations

variable (host : Host) (ctx : Context)

/-- One macro expansion leads from the first form to the second. -/
inductive Expanded (a : Config) : Config → Prop
  | intro {c : Config} {g : Value} {t : Store} (opens : OpensMacro a c)
      (evaluated : c.Ends host ctx.nested (.ok g) t) : Expanded a ⟨g, a.scope, t⟩

/-- To go on with the form `a`, the form `c` has to be evaluated first, in another context. -/
inductive Asks (a : Config) : Context → Config → Prop
  | macroBody {c : Config} (opens : OpensMacro a c) : Asks a ctx.nested c
  | operand {form : Value} {before after values : List Value} {t : Store}
      (plain : a.store.calledMacro? a.scope a.form = none)
      (here : Form.operands a.form = before ++ form :: after)
      (evaluated : EvaluatesAll host ctx.nested a.scope before a.store values t) :
      Asks a ctx.nested ⟨form, a.scope, t⟩
  | binding {node label : NodeId} {kind : SeqKind} {param form : Value}
      {before after body : List Value} {t : Store}
      (plain : a.store.calledMacro? a.scope a.form = none)
      (here : a.form = .seq node .list
        (.symbol "let" :: .seq label kind (before ++ param :: form :: after) :: body))
      (even : (before ++ param :: form :: after).length % 2 = 0)
      (bound : BindsPairs host ctx.nested a.store.scopes.size before
        (a.store.addScope (some a.scope)).2 t) :
      Asks a ctx.nested ⟨form, a.store.scopes.size, t⟩
  | macroexpansion {node : NodeId} {form : Value} {b c : Config}
      (plain : a.store.calledMacro? a.scope a.form = none)
      (here : a.form = .seq node .list [.symbol "macroexpand", form])
      (expanded : Relation.ReflTransGen (Expanded host ctx.nested) ⟨form, a.scope, a.store⟩ b)
      (opens : OpensMacro b c) : Asks a ctx.nested.nested c

/-- The form is a call that applies an operation of the host to the values, in the store `t`. -/
inductive CallsHost (a : Config) (name : String) (registered : ScopeId) (values : List Value)
    (t : Store) : Prop
  | intro {node : NodeId} {head : Value} {args : List Value}
      (plain : a.store.calledMacro? a.scope a.form = none)
      (here : a.form = .seq node .list (head :: args)) (ordinary : Special.ofHead? head = none)
      (evaluated : EvaluatesAll host ctx.nested a.scope (head :: args) a.store
        (.native (.host name registered) :: values) t)

/-- The error is that of an evaluation which the form asks for, or of an operation of the host which
it calls. -/
inductive FailsFor (a : Config) (error : Error) (t : Store) : Prop
  | asked {ctx' : Context} {c : Config} (asks : Asks host ctx a ctx' c)
      (fails : c.Ends host ctx' (.error error) t)
  | native {name : String} {registered : ScopeId} {values : List Value} {u : Store}
      (calls : CallsHost host ctx a name registered values u)
      (fails : Eval.Ends (fun fuel => applyNative host fuel (.host name registered) values) u
        (.error error) t)

end Relations

theorem Asks.first {host : Host} {ctx : Context} {a : Config} {operand : Value} {rest : List Value}
    (plain : a.store.calledMacro? a.scope a.form = none)
    (here : Form.operands a.form = operand :: rest) :
    Asks host ctx a ctx.nested ⟨operand, a.scope, a.store⟩ :=
  @Asks.operand host ctx a operand [] rest [] a.store plain here .nil

/-- A computation that evaluates nothing refuses nothing. -/
def Invariant.calm : Invariant where
  holds _ := True
  contexts _ := False
  owns _ := True
  raises error := error.isRefusal = false
  raises_unrefused unrefused := unrefused
  countNode _ := trivial
  addScope _ _ := trivial
  owns_new _ := trivial
  define _ _ _ _ := trivial
  nested contexts := contexts
  stamp _ _ _ _ _ := trivial

theorem isRefusal_of_calm {α : Type} {fits : α → Prop} {x : Eval α}
    (calm : Invariant.calm.simulation.Follows fits x x) {s t : Store} {error : Error}
    (fails : x s = .error (.error error) t) : error.isRefusal = false := by
  have outcomes := calm ⟨Eq.refl s, trivial⟩
  rw [fails] at outcomes
  cases outcomes with
  | error raised _ => exact raised

namespace Special

/-- The name of a special form. -/
def name : Special → String
  | define => "def"
  | letIn => "let"
  | quote => "quote"
  | quasiquote => "quasiquote"
  | makeMacro => "macro"
  | macroexpand => "macroexpand"
  | attempt => "try"
  | sequence => "do"
  | conditional => "if"
  | makeFn => "fn"
  | evalWhenExecute => "eval-when-execute"

theorem eq_of_ofHead? {head : Value} {special : Special} (named : ofHead? head = some special) :
    head = .symbol special.name := by
  cases head with
  | symbol own =>
      change ofName? own = some special at named
      rw [ofName?.eq_def] at named
      split at named <;> cases named <;> rfl
  | _ => cases named

theorem eq_of_catchClause? {clause handler : Value} {name : String}
    (shaped : catchClause? clause = .ok (some (name, handler))) :
    ∃ label, clause = .seq label .list [.symbol "catch", .symbol name, handler] := by
  rw [catchClause?.eq_def] at shaped
  split at shaped
  · split at shaped
    · cases shaped
    · split at shaped
      next head rest named =>
        split at shaped
        · cases shaped
          cases head with
          | symbol own =>
              have same : own = "catch" := by simpa [Form.isSymbol] using named
              exact ⟨_, by rw [same]⟩
          | _ => cases named
        · cases shaped
      · cases shaped
  · cases shaped

end Special

section Inversion

variable {host : Host} {ctx : Context} {scope : ScopeId} {fuel : Nat} {s t : Store}

theorem evaluates_of_enter {form value : Value}
    (ends : (Run.evaluatorAt host fuel).enter ctx form scope s = .ok value t) :
    Evaluates host ctx form scope s (.ok value) t :=
  ⟨fuel, attempt_eq_value_iff.2 ends⟩

theorem evaluates_error_of_enter {form : Value} {error : Error}
    (ends : (Run.evaluatorAt host fuel).enter ctx form scope s = .error (.error error) t) :
    Evaluates host ctx form scope s (.error error) t :=
  ⟨fuel, attempt_eq_error_iff.2 ends⟩

theorem evaluatesAll_of_enterAll {forms values : List Value}
    (ends : (Run.evaluatorAt host fuel).enterAll ctx scope forms s = .ok values t) :
    EvaluatesAll host ctx.nested scope forms s values t := by
  induction forms generalizing s values with
  | nil =>
      cases ends
      exact .nil
  | cons form forms ih =>
      rw [Evaluator.enterAll_cons] at ends
      obtain ⟨value, u, first, ends⟩ := bind_eq_ok_iff.1 ends
      obtain ⟨rest, v, others, ends⟩ := bind_eq_ok_iff.1 ends
      cases ends
      exact .cons (evaluates_of_enter first) (ih others)

/-- Where several evaluations fail, one of them does after those before it have succeeded. -/
theorem fails_of_enterAll {forms : List Value} {error : Error}
    (fails : (Run.evaluatorAt host fuel).enterAll ctx scope forms s = .error (.error error) t) :
    ∃ before form after values u, forms = before ++ form :: after ∧
      EvaluatesAll host ctx.nested scope before s values u ∧
      Evaluates host ctx.nested form scope u (.error error) t := by
  induction forms generalizing s with
  | nil => cases fails
  | cons form forms ih =>
      rw [Evaluator.enterAll_cons] at fails
      obtain fails | ⟨value, u, first, fails⟩ := bind_eq_error_iff.1 fails
      · exact ⟨[], form, forms, [], s, rfl, .nil, evaluates_error_of_enter fails⟩
      · obtain fails | ⟨rest, v, _, fails⟩ := bind_eq_error_iff.1 fails
        · obtain ⟨before, failing, after, values, v, rfl, evaluated, fails⟩ := ih fails
          exact ⟨form :: before, failing, after, value :: values, v, rfl,
            .cons (evaluates_of_enter first) evaluated, fails⟩
        · cases fails

theorem enterAll_of_enterEntries {entries : List (MapKey × Value)} {error : Stop}
    (fails : (Run.evaluatorAt host fuel).enterEntries ctx scope entries s = .error error t) :
    (Run.evaluatorAt host fuel).enterAll ctx scope (entries.map Prod.snd) s = .error error t := by
  induction entries generalizing s with
  | nil => cases fails
  | cons entry entries ih =>
      rw [Evaluator.enterEntries, List.mapM_cons] at fails
      rw [List.map_cons, Evaluator.enterAll_cons]
      obtain fails | ⟨_, u, first, fails⟩ := bind_eq_error_iff.1 fails
      · obtain fails | ⟨value, u, _, fails⟩ := bind_eq_error_iff.1 fails
        · exact bind_of_error fails
        · cases fails
      · obtain ⟨value, v, first, same⟩ := bind_eq_ok_iff.1 first
        cases same
        obtain fails | ⟨rest, w, _, fails⟩ := bind_eq_error_iff.1 fails
        · rw [bind_of_ok first, bind_of_error (ih fails)]
        · cases fails

theorem bindsPairs_of_bindPairs : ∀ {pairs : List Value} {s : Store}, pairs.length % 2 = 0 →
    Special.bindPairs (Run.evaluatorAt host fuel) ctx scope pairs s = .ok () t →
    BindsPairs host ctx.nested scope pairs s t
  | [], _, _, ends => by
      cases ends
      exact .nil
  | [_], _, even, _ => by cases even
  | param :: form :: pairs, s, even, ends => by
      rw [Special.bindPairs] at ends
      obtain ⟨value, u, first, ends⟩ := bind_eq_ok_iff.1 ends
      obtain ⟨_, v, bound, ends⟩ := bind_eq_ok_iff.1 ends
      refine .cons (evaluates_of_enter first) bound (bindsPairs_of_bindPairs ?_ ends)
      simp only [List.length_cons] at even
      omega

theorem fails_of_bindPairs {error : Error} : ∀ {pairs : List Value} {s : Store},
    Special.bindPairs (Run.evaluatorAt host fuel) ctx scope pairs s = .error (.error error) t →
    error.isRefusal = false ∨
      ∃ before param form after u, pairs = before ++ param :: form :: after ∧
        BindsPairs host ctx.nested scope before s u ∧
        Evaluates host ctx.nested form scope u (.error error) t
  | [], _, fails | [_], _, fails => by cases fails
  | param :: form :: pairs, s, fails => by
      rw [Special.bindPairs] at fails
      obtain fails | ⟨value, u, first, fails⟩ := bind_eq_error_iff.1 fails
      · exact .inr ⟨[], param, form, pairs, s, rfl, .nil, evaluates_error_of_enter fails⟩
      · obtain fails | ⟨_, v, bound, fails⟩ := bind_eq_error_iff.1 fails
        · exact .inl (isRefusal_of_calm (Simulation.follows_bind trivial param value) fails)
        · obtain calm | ⟨before, param', form', after, w, rfl, rest, last⟩ := fails_of_bindPairs fails
          · exact .inl calm
          · exact .inr ⟨param :: form :: before, param', form', after, w, rfl,
              .cons (evaluates_of_enter first) bound rest, last⟩

theorem fails_of_run (off : ctx.annotate = false) {rounds : Nat} {form : Value} {error : Error}
    (fails : Expansion.run (Run.evaluatorAt host fuel).enter ctx scope rounds form s =
      .error (.error error) t) :
    error.isRefusal = false ∨
      ∃ b c, Relation.ReflTransGen (Expanded host ctx) ⟨form, scope, s⟩ b ∧ OpensMacro b c ∧
        c.Ends host ctx.nested (.error error) t := by
  induction rounds generalizing form s with
  | zero => cases fails
  | succ rounds ih =>
      rw [Expansion.run_succ off] at fails
      cases called : s.calledMacro? scope form with
      | none =>
          simp only [called] at fails
          cases fails
      | some parts =>
          obtain ⟨params, body, outer⟩ := parts
          simp only [called] at fails
          obtain fails | ⟨inner, u, bound, fails⟩ := bind_eq_error_iff.1 fails
          · exact .inl (isRefusal_of_calm
              (Simulation.follows_callScope outer params (Expansion.callArgs form)) fails)
          have opens : OpensMacro ⟨form, scope, s⟩ ⟨body, inner, u⟩ := ⟨params, outer, called, bound⟩
          obtain fails | ⟨expanded, v, evaluated, fails⟩ := bind_eq_error_iff.1 fails
          · exact .inr ⟨_, _, .refl, opens, evaluates_error_of_enter fails⟩
          · obtain calm | ⟨b, c, steps, opens', fails⟩ := ih fails
            · exact .inl calm
            · exact .inr ⟨b, c, .head (.intro opens (evaluates_of_enter evaluated)) steps, opens',
                fails⟩

end Inversion

end AnnotatedLisp
