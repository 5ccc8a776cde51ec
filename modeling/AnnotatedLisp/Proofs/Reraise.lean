import AnnotatedLisp.Proofs.Limit.Guard
import AnnotatedLisp.Proofs.Plain

/-!
A `try` without a `catch` clause.

It evaluates its body and nothing else, and when the body fails, the error goes on as it is. The empty list
is the exception: it is taken for a `catch` clause that lacks its parts, so that the error of the body is
replaced by one about the clause.

What the head of a form is bound to is recorded before its step is taken, here `try` if that is bound to
anything. The body is evaluated in the store with this record.
-/

namespace AnnotatedLisp

open Eval Filter

/-- `(try body)`, or `(try body clause)`. -/
def Special.tryForm (node : NodeId) (body : Value) (clause : Option Value) : Value :=
  .seq node .list (.symbol "try" :: body :: clause.toList)

/-- The error of a `try` of which the body fails, if its second form is not headed by `catch`. -/
def Special.reraised (clause : Option Value) (error : Error) : Error :=
  match clause with
  | some (.seq _ .list []) => catchClause?.malformedCatch
  | _ => error

variable {host : Host} {ctx : Context} {scope : ScopeId} {s t : Store} {fuel : Nat}

namespace Special

variable {clause : Option Value}

theorem catchClause?_of_unheaded {form : Value} (unheaded : Expansion.callHead? form ≠ some "catch") :
    (∃ label, form = .seq label .list []) ∨
      catchClause? form = .ok none ∧ ∀ error, reraised (some form) error = error := by
  cases form with
  | seq label kind items =>
      cases kind with
      | vector => exact .inr ⟨rfl, fun _ => rfl⟩
      | list =>
          cases items with
          | nil => exact .inl ⟨label, rfl⟩
          | cons head rest =>
              refine .inr ⟨if_neg ?_, fun _ => rfl⟩
              intro headed
              cases head with
              | symbol name =>
                  have same : name = "catch" := by simpa [Form.isSymbol] using headed
                  exact unheaded (congrArg some same)
              | _ => cases headed
  | _ => exact .inr ⟨rfl, fun _ => rfl⟩

/-- Without a handler, a `try` ends as its body does, but for the error. -/
theorem runTry_of_unheaded (ev : Evaluator)
    (unheaded : ∀ form ∈ clause, Expansion.callHead? form ≠ some "catch") (body : Value) :
    runTry ev ctx scope (body :: clause.toList) =
      (do match ← (ev.enter ctx.nested body scope).attempt with
          | .ok value => return .done value
          | .error error => Eval.raise (reraised clause error)) := by
  have whole : runTry ev ctx scope (body :: clause.toList) = runTryBody ev ctx scope body clause := by
    cases clause <;> rfl
  rw [whole, runTryBody]
  congr 1
  funext result
  cases result with
  | ok value => rfl
  | error error =>
      cases clause with
      | none => rfl
      | some form =>
          dsimp only [Option.map_some, Option.getD_some]
          obtain ⟨label, rfl⟩ | ⟨shaped, kept⟩ := catchClause?_of_unheaded (unheaded form rfl)
          · rfl
          · rw [shaped, kept]
            rfl

theorem step_of_unheaded (ev : Evaluator)
    (unheaded : ∀ form ∈ clause, Expansion.callHead? form ≠ some "catch") (node : NodeId)
    (body : Value) :
    ev.step ctx scope (tryForm node body clause) =
      (do match ← (ev.enter ctx.nested body scope).attempt with
          | .ok value => return .done value
          | .error error => Eval.raise (reraised clause error)) := by
  have named : ofHead? (.symbol "try") = some .attempt := rfl
  rw [tryForm, Evaluator.step_special _ _ _ named]
  exact runTry_of_unheaded ev unheaded body

end Special

section Try

open Special

variable {node : NodeId} {body : Value} {clause : Option Value}
  (plain : s.calledMacro? scope (tryForm node body clause) = none)
  (unheaded : ∀ form ∈ clause, Expansion.callHead? form ≠ some "catch")

include plain unheaded

theorem requests_of_try {ctx' : Context} {c : Config}
    (requests : Requests host ctx ⟨tryForm node body clause, scope, s⟩ ctx' c) :
    ctx' = ctx.nested ∧ c = ⟨body, scope, s.noted ctx scope (tryForm node body clause)⟩ := by
  cases requests with
  | macroBody unfolded opens => exact absurd opens (not_opens_of_unfolds plain unfolded)
  | @step _ b _ _ resolves requests =>
      obtain rfl := (resolves_iff_of_plain plain).1 resolves
      cases requests with
      | operand here evaluated =>
          have alone : Form.operands (tryForm node body clause) = [body] := by cases clause <;> rfl
          obtain ⟨rfl, same⟩ | ⟨_, none⟩ := List.append_eq_singleton_iff.1 (here.symm.trans alone)
          · cases evaluated
            cases same
            exact ⟨rfl, rfl⟩
          · cases none
      | binding here => simp [tryForm] at here
      | macroexpansion here => simp [tryForm] at here
  | @later _ b _ _ _ resolves steps =>
      obtain rfl := (resolves_iff_of_plain plain).1 resolves
      obtain ⟨fuel, stepped⟩ := steps
      dsimp only at stepped
      rw [step_of_unheaded _ unheaded] at stepped
      obtain ⟨result, u, _, ends⟩ := bind_eq_ok_iff.1 stepped
      cases result <;> cases ends

theorem evaluates_error_of_try (monotone : host.Monotone) (below : ctx.depth < ctx.limit) {error : Error}
    (fails : Evaluates host ctx.nested body scope (s.noted ctx scope (tryForm node body clause))
      (.error error) t) :
    Evaluates host ctx (tryForm node body clause) scope s (.error (reraised clause error)) t := by
  have fails := (tendsto_add_atTop_nat 1).eventually (eventually_enter_error monotone fails)
  obtain ⟨fuel, failed⟩ := fails.exists
  have stepped : (Run.evaluatorAt host (fuel + 1)).step ctx scope (tryForm node body clause)
      (s.noted ctx scope (tryForm node body clause)) =
        .error (.error (reraised clause error)) t := by
    rw [step_of_unheaded _ unheaded, bind_of_ok (attempt_of_error failed)]
    rfl
  refine ⟨fuel + 2, attempt_eq_error_iff.2 ?_⟩
  change evaluate host (fuel + 2) ctx (tryForm node body clause) scope s = _
  rw [evaluate_eq_loop below, Run.loop]
  exact (bind_of_ok (resolve_of_plain plain)).trans (bind_of_error stepped)

end Try

/-- A `try` whose second form, if it has one, is no list headed by `catch` evaluates its body, on the next
level, and no other form. Where the body fails, it fails in the same store, with the error of the body
unless the second form is the empty list. Where it is refused, the body would be refused in the same way.
Its head is recorded first only if stamps are made and `try` is bound to something. -/
theorem evaluates_try_of_unheaded (host : Host) (monotone : host.Monotone) (ctx : Context) (node : NodeId)
    (body : Value) (clause : Option Value) (scope : ScopeId) (s : Store)
    (plain : s.calledMacro? scope (Special.tryForm node body clause) = none)
    (unheaded : ∀ form ∈ clause, Expansion.callHead? form ≠ some "catch") :
    (ctx.depth < ctx.limit → ∀ error t,
      Evaluates host ctx.nested body scope (s.noted ctx scope (Special.tryForm node body clause))
        (.error error) t →
      Evaluates host ctx (Special.tryForm node body clause) scope s
        (.error (Special.reraised clause error)) t) ∧
    (ctx.limit ≤ ctx.depth → ∀ error t,
      Evaluates host ctx.nested body scope s (.error error) t →
      Evaluates host ctx (Special.tryForm node body clause) scope s (.error error) t) ∧
    (∀ ctx' c, Requests host ctx ⟨Special.tryForm node body clause, scope, s⟩ ctx' c →
      ctx' = ctx.nested ∧
        c = ⟨body, scope, s.noted ctx scope (Special.tryForm node body clause)⟩) ∧
    (ctx.annotate = false ∨ s.lookup "try" scope = none →
      s.noted ctx scope (Special.tryForm node body clause) = s) := by
  refine ⟨fun below error t fails => ?_, fun refused error t fails => ?_, fun ctx' c requests => ?_, ?_⟩
  · exact evaluates_error_of_try plain unheaded monotone below fails
  · have refusal : Config.Ends host ctx.nested ⟨body, scope, s⟩ (.error (.depthExceeded ctx.limit)) s :=
      ends_of_refused (Nat.le_succ_of_le refused)
    obtain ⟨⟨⟩, rfl⟩ := (evaluate_growing monotone ctx.nested body scope).ends_unique refusal fails
    exact ends_of_refused (c := ⟨Special.tryForm node body clause, scope, s⟩) refused
  · exact requests_of_try plain unheaded requests
  · rintro (off | unbound)
    · exact noted_of_off off _
    · exact noted_of_unbound rfl unbound

/-- `(try x [y])`, where nothing is bound. -/
theorem error_of_try_with_vector :
    let form : Value := Special.tryForm 1 (.symbol "x") (some (.seq 2 .vector [.symbol "y"]))
    let s : Store := ⟨#[⟨[], none⟩], 3, ∅, ""⟩
    Host.none.Monotone ∧ s.calledMacro? 0 form = none ∧
      Evaluates Host.none (Context.top false).nested (.symbol "x") 0 s (.error (.unboundSymbol "x")) s ∧
      Evaluates Host.none (.top false) form 0 s (.error (.unboundSymbol "x")) s := by
  intro form s
  have fails : Evaluates Host.none (Context.top false).nested (.symbol "x") 0 s
      (.error (.unboundSymbol "x")) s := ⟨1, rfl⟩
  have unheaded : ∀ clause ∈ some (Form.seq 2 .vector [.symbol "y"] : Value),
      Expansion.callHead? clause ≠ some "catch" := by
    rintro _ ⟨⟩
    exact nofun
  have reraises := (evaluates_try_of_unheaded Host.none Host.none_monotone (.top false) 1 (.symbol "x")
    (some (.seq 2 .vector [.symbol "y"])) 0 s rfl unheaded).1 (by decide) _ s fails
  exact ⟨Host.none_monotone, rfl, fails, reraises⟩

/-- `(try x ())`: the error of the body is lost. -/
theorem malformedCatch_of_empty_list :
    let form : Value := Special.tryForm 1 (.symbol "x") (some (.seq 2 .list []))
    let s : Store := ⟨#[⟨[], none⟩], 3, ∅, ""⟩
    Expansion.callHead? (.seq 2 .list []) ≠ some "catch" ∧
      Evaluates Host.none (Context.top false).nested (.symbol "x") 0 s (.error (.unboundSymbol "x")) s ∧
      ¬ Evaluates Host.none (.top false) form 0 s (.error (.unboundSymbol "x")) s := by
  intro form s
  refine ⟨nofun, ⟨1, rfl⟩, fun same => ?_⟩
  have fails : Evaluates Host.none (.top false) form 0 s
      (.error Special.catchClause?.malformedCatch) s := ⟨3, rfl⟩
  have unique := (evaluate_growing Host.none_monotone (.top false) form 0).ends_unique same fails
  cases unique.1

end AnnotatedLisp
