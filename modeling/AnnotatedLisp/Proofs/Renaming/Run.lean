import AnnotatedLisp.Proofs.Outcome
import AnnotatedLisp.Proofs.Renaming.Native
import AnnotatedLisp.Proofs.Renaming.Step
import AnnotatedLisp.Session.Turn

/-!
Whole runs under a renaming of nodes.

Operations of the host are other people's code. What is asked of them is that the names of nodes are
nothing to them: if the evaluations that they ask for correspond, then so does what they do.
-/

namespace AnnotatedLisp

open Eval

/-- The operations of the host do not look at the names of nodes. -/
def Host.Equivariant (host : Host) : Prop :=
  ∀ (r : Renaming) {e e' : Value → ScopeId → Eval Value},
    (∀ (form : Value) (scope : ScopeId),
      r.Carries r.value (e form scope) (e' (r.value form) scope)) →
    ∀ (name : String) (scope : ScopeId) (args : List Value),
      r.Carries r.value (host.call e name scope args) (host.call e' name scope (args.map r.value))

theorem Host.none_equivariant : Host.none.Equivariant :=
  fun _ _ _ _ name _ _ => Renaming.carries_raise (.unboundSymbol name)

namespace Renaming

variable {r : Renaming}

theorem carries_say (text : String) : r.Carries id (say text) (say text) :=
  ⟨fun _ => ⟨Nat.le_refl _, Nat.le_refl _⟩, fun related _ =>
    .ok ⟨related.scopes, related.first_le, related.nextNode, congrArg (· ++ text) related.output⟩⟩

section Loop

variable {host : Host} {loop loop' : Context → List NodeId → Value → ScopeId → Eval Value}
  {a b : Context}

theorem onlyStamps_stampAll (ctx : Context) (visited : List NodeId) (value : Value) :
    OnlyStamps (Run.stampAll ctx visited value) := by
  induction visited with
  | nil => exact onlyStamps_pure
  | cons node visited ih => exact (onlyStamps_stamp ctx node _).bind ih

theorem carries_enterWith
    (loops : ∀ {a b : Context}, a.Alike b → ∀ (form : Value) (scope : ScopeId),
      r.Carries r.value (loop a [] form scope) (loop' b [] (r.value form) scope))
    (alike : a.Alike b) (form : Value) (scope : ScopeId) :
    r.Carries r.value (Run.enterWith loop a form scope)
      (Run.enterWith loop' b (r.value form) scope) := by
  rw [Run.enterWith, Run.enterWith, ← alike.limit, ← alike.depth, onFreshStack_eq, onFreshStack_eq]
  split
  · exact carries_raise (.depthExceeded a.limit)
  · split <;> exact loops alike form scope

theorem carries_applyWith (equivariant : host.Equivariant)
    (loops : ∀ {a b : Context}, a.Alike b → ∀ (form : Value) (scope : ScopeId),
      r.Carries r.value (loop a [] form scope) (loop' b [] (r.value form) scope))
    (operation : Native) (args : List Value) :
    r.Carries r.value (Run.applyWith host loop operation args)
      (Run.applyWith host loop' operation (args.map r.value)) := by
  cases operation with
  | core op => exact carries_core op args
  | host name scope =>
      exact equivariant r (carries_enterWith loops (.refl (.top false))) name scope args

theorem evaluators (equivariant : host.Equivariant)
    (loops : ∀ {a b : Context}, a.Alike b → ∀ (form : Value) (scope : ScopeId),
      r.Carries r.value (loop a [] form scope) (loop' b [] (r.value form) scope)) (fuel : Nat) :
    r.Evaluators (Run.evaluator host fuel loop) (Run.evaluator host fuel loop') where
  enter alike form scope := carries_enterWith loops alike form scope
  expand alike form scope :=
    carries_expansion (fun alike form scope => carries_enterWith loops alike form scope) alike scope fuel
      form
  apply := carries_applyWith equivariant loops

end Loop

section Runs

variable {host : Host} (equivariant : host.Equivariant)

include equivariant

theorem carries_loop (fuel : Nat) {a b : Context} (alike : a.Alike b) (visited visited' : List NodeId)
    (form : Value) (scope : ScopeId) :
    r.Carries r.value (Run.loop host fuel a visited form scope)
      (Run.loop host fuel b visited' (r.value form) scope) := by
  -- The fuel bounds the steps, the nesting and the expansions of both runs alike.
  induction fuel generalizing a b visited visited' form scope with
  | zero => exact carries_exhausted
  | succ fuel ih =>
      have evs : r.Evaluators (Run.evaluator host fuel (Run.loop host fuel))
          (Run.evaluator host fuel (Run.loop host fuel)) :=
        evaluators equivariant (fun alike form scope => ih alike [] [] form scope) fuel
      rw [Run.loop, Run.loop]
      refine (carries_resolve evs alike scope form).bind fun expanded => ?_
      refine (carries_step evs alike scope expanded).bind fun step => ?_
      cases step with
      | done value =>
          exact (carries_onlyStamps (onlyStamps_stampAll a _ value)
            (onlyStamps_stampAll b _ (r.value value))).bind fun _ => carries_pure rfl
      | tail next inner => exact ih alike _ _ next inner

theorem carries_evaluate (fuel : Nat) {a b : Context} (alike : a.Alike b) (form : Value)
    (scope : ScopeId) :
    r.Carries r.value (evaluate host fuel a form scope)
      (evaluate host fuel b (r.value form) scope) :=
  carries_enterWith (fun alike form scope => carries_loop equivariant fuel alike [] [] form scope) alike
    form scope

section Outcomes

variable {a b : Context} (alike : a.Alike b) (unbounded : r.last = none) {form : Value}
  {scope : ScopeId} {s t : Store} (related : r.Stores s t) {result : Except Error Value} {u : Store}

include alike unbounded related

/-- If no bound is set to the nodes that runs make, a form has in the second store the outcomes that it has
in the first. -/
theorem agrees_evaluate (fuel : Nat) (form : Value) (scope : ScopeId) :
    r.Agrees (r.result r.value) ((evaluate host fuel a form scope).attempt s)
      ((evaluate host fuel b (r.value form) scope).attempt t) :=
  (carries_evaluate equivariant fuel alike form scope).attempt.agrees related
    (by simp [unbounded])

theorem exists_evaluates (ends : Evaluates host a form scope s result u) :
    ∃ v, Evaluates host b (r.value form) scope t (r.result r.value result) v ∧ r.Stores u v := by
  obtain ⟨fuel, ends⟩ := ends
  have agrees := agrees_evaluate equivariant alike unbounded related fuel form scope
  rw [ends] at agrees
  generalize ends' : (evaluate host fuel b (r.value form) scope).attempt t = outcome at agrees
  cases agrees with
  | ok related => exact ⟨_, ⟨fuel, ends'⟩, related⟩

theorem exists_evaluates_back
    (ends : Evaluates host b (r.value form) scope t result u) :
    ∃ result' v, Evaluates host a form scope s result' v ∧ r.result r.value result' = result ∧
      r.Stores v u := by
  obtain ⟨fuel, ends⟩ := ends
  have agrees := agrees_evaluate equivariant alike unbounded related fuel form scope
  rw [ends] at agrees
  generalize ends' : (evaluate host fuel a form scope).attempt s = outcome at agrees
  cases agrees with
  | ok related => exact ⟨_, _, ⟨fuel, ends'⟩, rfl, related⟩

end Outcomes

end Runs

end Renaming

open Renaming in
theorem Session.host_equivariant : Session.host.Equivariant := by
  intro r e e' _ name _ args
  change r.Carries r.value
    (if name = "help" then Session.help.call args else raise (.unboundSymbol name))
    (if name = "help" then Session.help.call (args.map r.value) else raise (.unboundSymbol name))
  split
  · refine (carries_ofExcept (check_arity _ args)).bind fun _ => ?_
    refine (carries_ofExcept (convertAll_args _ args)).bind fun _ => ?_
    exact (carries_say _).bind fun _ => carries_pure rfl
  · exact carries_raise (.unboundSymbol name)

end AnnotatedLisp
