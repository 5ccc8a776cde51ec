import AnnotatedLisp.Proofs.Limit.Guard
import AnnotatedLisp.Proofs.Params.Bind
import AnnotatedLisp.Proofs.Quasiquote.Evaluation
import AnnotatedLisp.Proofs.Scopes.Chain

/-!
A `let` of one binding, and a call of a function literal with one argument: what takes their place.

The `let` binds in its new scope and then makes one form of its body. The function has that form before it is
called, and the binding takes place in the scope of the call. Each of the two fails as its binding fails, or
because there is no level left for the value that is to be bound.
-/

namespace AnnotatedLisp

open Eval Filter

/-- `(quote value)`. -/
def quotation (node : NodeId) (value : Value) : Value :=
  .seq node .list [.symbol "quote", value]

/-- `(let [spec (quote value)] body …)`, with the nodes that it is written with. -/
def letForm (node pairs quoted : NodeId) (kind : SeqKind) (spec value : Value) (body : List Value) :
    Value :=
  .seq node .list (.symbol "let" :: .seq pairs kind [spec, quotation quoted value] :: body)

/-- `(fn [spec] body …)`. -/
def literal (node params : NodeId) (kind : SeqKind) (spec : Value) (body : List Value) : Value :=
  .seq node .list (.symbol "fn" :: .seq params kind [spec] :: body)

/-- `((fn [spec] body …) (quote value))`. -/
def callForm (node head params quoted : NodeId) (kind : SeqKind) (spec value : Value)
    (body : List Value) : Value :=
  .seq node .list [literal head params kind spec body, quotation quoted value]

namespace Special

/-- How many nodes are made for the one form of a body. -/
def bodyNodes : List Value → Nat
  | _ :: _ :: _ => 1
  | _ => 0

/-- The one form of a body, if the next node is `node`. -/
def bodyAt (node : NodeId) : List Value → Value
  | [] => .nil
  | [form] => form
  | forms => .seq node .list (.symbol "do" :: forms)

theorem bodyForm_apply (body : List Value) (s : Store) :
    bodyForm body s = .ok (bodyAt s.nextNode body) (s.withNodes (bodyNodes body)) := by
  rcases body with _ | ⟨form, _ | ⟨next, forms⟩⟩ <;> rfl

end Special

section Forms

open Special

variable {host : Host} (monotone : host.Monotone) {ctx : Context} (off : ctx.annotate = false)
  {scope : ScopeId} {s t : Store} {kind : SeqKind} {spec value : Value} {body : List Value}
  {node pairs quoted head params : NodeId}

include monotone off

/-- At the last level that the limit allows nothing can be bound. -/
theorem evaluates_let_of_refused (below : ctx.depth < ctx.limit) (last : ctx.limit ≤ ctx.nested.depth)
    (plain : s.Macroless "let" scope) :
    Evaluates host ctx (letForm node pairs quoted kind spec value body) scope s
      (.error (.depthExceeded ctx.limit)) (s.addScope (some scope)).2 := by
  refine evaluates_of_step_error monotone off below (calledMacro?_of_macroless plain _ _) ?_
  have refused : Evaluates host ctx.nested (quotation quoted value) s.scopes.size
      (s.addScope (some scope)).2 (.error (.depthExceeded ctx.limit)) (s.addScope (some scope)).2 :=
    ends_of_refused (c := ⟨_, _, _⟩) last
  filter_upwards [eventually_enter_error monotone refused] with fuel refused
  change Special.runLet _ ctx scope (.seq pairs kind [spec, quotation quoted value] :: body) s = _
  rw [runLet, if_neg (by simp), bind_of_ok (newScope_apply scope s)]
  exact bind_of_error (bind_of_error refused)

theorem evaluates_call_of_refused (below : ctx.depth < ctx.limit) (last : ctx.limit ≤ ctx.nested.depth) :
    Evaluates host ctx (callForm node head params quoted kind spec value body) scope s
      (.error (.depthExceeded ctx.limit)) s := by
  have refused : Evaluates host ctx.nested (literal head params kind spec body) scope s
      (.error (.depthExceeded ctx.limit)) s :=
    ends_of_refused (c := ⟨_, _, _⟩) last
  exact evaluates_call_of_head_error monotone off below rfl rfl refused

section Levels

variable (below : ctx.nested.depth < ctx.limit)

include below

section Let

variable (plain : s.Macroless "let" scope)
  (quotes : (s.addScope (some scope)).2.Macroless "quote" s.scopes.size)

include plain quotes

theorem evaluates_let_error {error : Error}
    (failed : Params.bind s.scopes.size spec value (s.addScope (some scope)).2 = .error (.error error) t) :
    Evaluates host ctx (letForm node pairs quoted kind spec value body) scope s (.error error) t := by
  refine evaluates_of_step_error monotone off (Nat.lt_of_succ_lt below)
    (calledMacro?_of_macroless plain _ _) ?_
  have off' : ctx.nested.annotate = false := off
  filter_upwards [eventually_enter_value monotone (evaluates_quote monotone off' below quotes quoted value)]
    with fuel evaluated
  change Special.runLet _ ctx scope (.seq pairs kind [spec, quotation quoted value] :: body) s = _
  rw [runLet, if_neg (by simp), bind_of_ok (newScope_apply scope s)]
  refine bind_of_error ?_
  rw [bindPairs, quotation, bind_of_ok evaluated, bind_of_error failed]

theorem tailStep_let (inhabited : body ≠ [])
    (bound : Params.bind s.scopes.size spec value (s.addScope (some scope)).2 = .ok () t) :
    TailStep host ctx ⟨letForm node pairs quoted kind spec value body, scope, s⟩
      ⟨bodyAt t.nextNode body, s.scopes.size, t.withNodes (bodyNodes body)⟩ where
  plain := calledMacro?_of_macroless plain _ _
  rule := by
    have off' : ctx.nested.annotate = false := off
    have even : [spec, quotation quoted value].length % 2 = 0 := Nat.mod_self 2
    exact .letBody even inhabited
      (.cons (evaluates_quote monotone off' below quotes quoted value) bound .nil) (bodyForm_apply body t)

end Let

/-- Nodes that were made meanwhile make no difference to the value. -/
theorem evaluates_argument (quotes : s.Macroless "quote" scope) (count : Nat) :
    Evaluates host ctx.nested (quotation quoted value) scope (s.withNodes count) (.ok value)
      (s.withNodes count) := by
  have off' : ctx.nested.annotate = false := off
  exact evaluates_quote monotone off' below (quotes.withNodes count) quoted value

section Call

variable (functions : s.Macroless "fn" scope) (quotes : s.Macroless "quote" scope)
  (inhabited : body ≠ [])

include functions inhabited

theorem evaluates_literal :
    Evaluates host ctx.nested (literal head params kind spec body) scope s
      (.ok (.fn (s.nextNode + bodyNodes body) (.seq params kind [spec]) (bodyAt s.nextNode body) scope
        false)) (s.withNodes (bodyNodes body + 1)) := by
  have off' : ctx.nested.annotate = false := off
  refine evaluates_of_done monotone off' below (calledMacro?_of_macroless functions _ _)
    (.of_forall fun fuel => ?_)
  change runFn scope (.seq params kind [spec] :: body) s = _
  cases body with
  | nil => contradiction
  | cons form forms =>
      rw [runFn, checkParams, pure_bind_apply, bind_of_ok (bodyForm_apply (form :: forms) s)]
      rfl

include quotes

theorem evaluates_call_error {error : Error} (single : spec ≠ .symbol Params.restMarker)
    (failed : Params.bind s.scopes.size spec value
      ((s.withNodes (bodyNodes body + 1)).addScope (some scope)).2 = .error (.error error) t) :
    Evaluates host ctx (callForm node head params quoted kind spec value body) scope s (.error error)
      t := by
  refine evaluates_of_step_error monotone off (Nat.lt_of_succ_lt below) rfl ?_
  have argument : EvaluatesAll host ctx.nested scope [quotation quoted value]
      (s.withNodes (bodyNodes body + 1)) [value] (s.withNodes (bodyNodes body + 1)) :=
    .cons (evaluates_argument monotone off below quotes _) .nil
  filter_upwards [eventually_enterAll monotone argument,
    eventually_enter_value monotone (evaluates_literal monotone off below functions inhabited)]
    with fuel arguments callee
  rw [callForm, Evaluator.step_call _ _ _ rfl, Evaluator.stepCall, bind_of_ok callee,
    bind_of_ok arguments, stamp_of_off off, pure_bind_apply, Evaluator.stepApply]
  refine bind_of_error ?_
  rw [Params.newScope_single single]
  exact bind_of_error failed

theorem tailStep_call (single : spec ≠ .symbol Params.restMarker)
    (bound : Params.bind s.scopes.size spec value
      ((s.withNodes (bodyNodes body + 1)).addScope (some scope)).2 = .ok () t) :
    TailStep host ctx ⟨callForm node head params quoted kind spec value body, scope, s⟩
      ⟨bodyAt s.nextNode body, s.scopes.size, t⟩ where
  plain := rfl
  rule := by
    refine .call rfl (evaluates_literal monotone off below functions inhabited)
      (.cons (evaluates_argument monotone off below quotes _) .nil) ?_
    rw [Params.newScope_single single]
    exact bind_of_ok bound

end Call

end Levels

end Forms

end AnnotatedLisp
