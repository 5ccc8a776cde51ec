import AnnotatedLisp.Proofs.Limit.Requests

/-!
The limit of depth is only a guard.

A run in which no evaluation is refused is the same run under every higher limit, and where a run under a
higher limit ends, the run under the lower one ends in the same way or is refused something on the way.
A refusal can be caught like any other error, so this is said of all evaluations inside a run and not of
its outcome.
-/

namespace AnnotatedLisp

open Eval

/-- No evaluation inside the run is refused: each one is on a level below the limit. -/
def Admitted (host : Host) (ctx : Context) (a : Config) : Prop :=
  ∀ ctx' c, Inside host (ctx, a) (ctx', c) → ctx'.depth < ctx'.limit

section

variable {host : Host} {ctx ctx' : Context} {a c : Config}

theorem Requests.limit_eq (requests : Requests host ctx a ctx' c) : ctx'.limit = ctx.limit := by
  obtain ⟨depth, rfl⟩ := requests.context_eq
  rfl

theorem Inside.limit_eq {p q : Context × Config} (inside : Inside host p q) :
    q.1.limit = p.1.limit := by
  induction inside with
  | refl => rfl
  | tail _ requests ih => exact requests.limit_eq.trans ih

/-- A form that is not a list requests its parts and nothing else. -/
theorem Requests.mem_operands (atom : a.form.isList = false)
    (requests : Requests host ctx a ctx' c) : ctx' = ctx.nested ∧ c.form ∈ Form.operands a.form := by
  obtain ⟨form, scope, s⟩ := a
  have unresolved : ∀ {b : Config}, Resolves host ctx ⟨form, scope, s⟩ b → b = ⟨form, scope, s⟩ := by
    rintro ⟨g, _, t⟩ ⟨rfl, fuel, resolved⟩
    rw [Evaluator.resolve_of_atom _ _ _ atom] at resolved
    cases resolved
    rfl
  cases requests with
  | macroBody unfolded opens =>
      exact absurd opens (not_opens_of_unfolds (calledMacro?_of_not_list atom) unfolded)
  | step resolved requests =>
      obtain rfl := unresolved resolved
      cases requests with
      | operand here => exact ⟨rfl, by simp [here]⟩
      | binding here | macroexpansion here => cases here; cases atom
  | later resolved steps =>
      obtain rfl := unresolved resolved
      obtain ⟨fuel, steps⟩ := steps
      rw [Evaluator.step_of_atom _ _ _ atom] at steps
      obtain ⟨_, _, _, done⟩ := bind_eq_ok_iff.1 steps
      cases done

theorem loop_eq_of_admitted {limit : Nat} (more : ctx.limit ≤ limit) (admitted : Admitted host ctx a)
    (fuel : Nat) (visited : List NodeId) :
    Run.loop host fuel ctx visited a.form a.scope a.store =
      Run.loop host fuel (ctx.withLimit limit) visited a.form a.scope a.store := by
  -- The induction is on the fuel: it covers the levels further down and the tail steps on this one.
  induction fuel generalizing ctx a visited with
  | zero => rfl
  | succ fuel ih =>
      have same : ∀ ctx' c, Requests host ctx a ctx' c →
          SameUnder host fuel (Run.evaluatorAt host fuel).enter limit ctx' c := by
        intro ctx' c requests
        have inside : Admitted host ctx' c := fun _ _ part => admitted _ _ (.head requests part)
        have below : ctx'.depth < ctx'.limit := inside _ _ .refl
        have more : ctx'.limit ≤ limit := requests.limit_eq ▸ more
        have here := ih more inside []
        have below' : (ctx'.withLimit limit).depth < (ctx'.withLimit limit).limit :=
          Nat.lt_of_lt_of_le below more
        change evaluate host fuel ctx' c.form c.scope c.store =
          evaluate host fuel (ctx'.withLimit limit) c.form c.scope c.store
        rw [evaluate_eq_loop below, evaluate_eq_loop below', here]
      rw [Run.loop, Run.loop]
      refine bind_congr (resolve_congr fun b c unfolded opens => same _ _ (.macroBody unfolded opens))
        fun expanded t resolved => ?_
      have resolves : Resolves host ctx a ⟨expanded, a.scope, t⟩ := ⟨rfl, fuel, resolved⟩
      refine bind_congr (step_congr fun ctx' c requests => same _ _ (.step resolves requests))
        fun step u stepped => ?_
      cases step with
      | done value => rfl
      | tail next inner =>
          have steps : Steps host ctx ⟨expanded, a.scope, t⟩ ⟨next, inner, u⟩ := ⟨fuel, stepped⟩
          have rest : Admitted host ctx ⟨next, inner, u⟩ := by
            intro ctx' c inside
            obtain same | ⟨q, requests, part⟩ := inside.cases_head
            · cases same
              exact admitted _ _ .refl
            · exact admitted _ _ (.head (.later resolves steps requests) part)
          exact ih more rest _

/-- A run in which nothing is refused is the same run under a higher limit. -/
theorem evaluate_eq_of_admitted {limit : Nat} (more : ctx.limit ≤ limit)
    (admitted : Admitted host ctx a) (fuel : Nat) :
    evaluate host fuel ctx a.form a.scope a.store =
      evaluate host fuel (ctx.withLimit limit) a.form a.scope a.store := by
  have below : ctx.depth < ctx.limit := admitted _ _ .refl
  have below' : (ctx.withLimit limit).depth < (ctx.withLimit limit).limit :=
    Nat.lt_of_lt_of_le below more
  rw [evaluate_eq_loop below, evaluate_eq_loop below', loop_eq_of_admitted more admitted]

theorem ends_of_refused (refused : ctx.limit ≤ ctx.depth) :
    c.Ends host ctx (.error (.depthExceeded ctx.limit)) c.store := by
  refine ⟨0, attempt_eq_error_iff.2 ?_⟩
  change Run.enterWith _ ctx c.form c.scope c.store = _
  rw [Run.enterWith, if_pos refused]
  rfl

end

/-- Raising the limit of a run that is refused nothing changes nothing, and lowering it changes nothing
unless an evaluation inside the run is refused. -/
theorem limit_only_guards (host : Host) (annotate : Bool) {m n : Nat} (more : m ≤ n) (form : Value)
    (scope : ScopeId) (s t : Store) (result : Except Error Value) :
    (Evaluates host (.within annotate m) form scope s result t →
      Admitted host (.within annotate m) ⟨form, scope, s⟩ →
      Evaluates host (.within annotate n) form scope s result t) ∧
    (Evaluates host (.within annotate n) form scope s result t →
      Evaluates host (.within annotate m) form scope s result t ∨
        ∃ ctx c, Inside host (.within annotate m, ⟨form, scope, s⟩) (ctx, c) ∧ m ≤ ctx.depth ∧
          c.Ends host ctx (.error (.depthExceeded m)) c.store) := by
  have same (admitted : Admitted host (.within annotate m) ⟨form, scope, s⟩) (fuel : Nat) :
      evaluate host fuel (.within annotate m) form scope s =
        evaluate host fuel (.within annotate n) form scope s :=
    evaluate_eq_of_admitted more admitted fuel
  constructor
  · rintro ⟨fuel, ends⟩ admitted
    exact ⟨fuel, (attempt_congr (same admitted fuel)).symm.trans ends⟩
  · rintro ⟨fuel, ends⟩
    by_cases admitted : Admitted host (.within annotate m) ⟨form, scope, s⟩
    · exact .inl ⟨fuel, (attempt_congr (same admitted fuel)).trans ends⟩
    · simp only [Admitted, not_forall, Nat.not_lt] at admitted
      obtain ⟨ctx, c, inside, refused⟩ := admitted
      obtain rfl : ctx.limit = m := Inside.limit_eq inside
      exact .inr ⟨ctx, c, inside, refused, ends_of_refused refused⟩

/-- `[nil]` needs two levels. Under a limit of two or three it has the same value; under a limit of one
the evaluation of its item is refused. -/
theorem limits_of_vector :
    let form : Value := .seq 1 .vector [.nil]
    let value : Value := .seq 2 .vector [.nil]
    let s : Store := ⟨#[⟨[], none⟩], 2, ∅, ""⟩
    let t : Store := ⟨#[⟨[], none⟩], 3, ∅, ""⟩
    (Evaluates Host.none (.within false 2) form 0 s (.ok value) t ∧
        Admitted Host.none (.within false 2) ⟨form, 0, s⟩ ∧
        Evaluates Host.none (.within false 3) form 0 s (.ok value) t) ∧
      ∃ ctx c, Inside Host.none (.within false 1, ⟨form, 0, s⟩) (ctx, c) ∧ 1 ≤ ctx.depth ∧
        c.Ends Host.none ctx (.error (.depthExceeded 1)) c.store := by
  intro form value s t
  have ends : Evaluates Host.none (.within false 2) form 0 s (.ok value) t := ⟨2, rfl⟩
  have admitted : Admitted Host.none (.within false 2) ⟨form, 0, s⟩ := by
    intro ctx c inside
    obtain same | ⟨⟨ctx', c'⟩, requests, part⟩ := inside.cases_head
    · cases same
      decide
    -- The vector requests its item, which requests nothing.
    obtain ⟨rfl, item⟩ := requests.mem_operands rfl
    obtain same : c'.form = .nil := List.mem_singleton.1 item
    obtain eq | ⟨⟨_, _⟩, requests', _⟩ := part.cases_head
    · cases eq
      decide
    · have atom : c'.form.isList = false := by rw [same]; rfl
      have none : _ ∈ Form.operands c'.form := (requests'.mem_operands atom).2
      rw [same] at none
      cases none
  refine ⟨⟨ends, admitted, ?_⟩, ?_⟩
  · exact (limit_only_guards Host.none false (by decide) form 0 s t _).1 ends admitted
  · refine ((limit_only_guards Host.none false (by decide) form 0 s t _).2 ends).resolve_left ?_
    rintro ends'
    have refused : Evaluates Host.none (.within false 1) form 0 s (.error (.depthExceeded 1)) s :=
      ⟨2, rfl⟩
    have grows := evaluate_growing Host.none_monotone (.within false 1) form 0
    cases (grows.ends_unique ends' refused).1

end AnnotatedLisp
