import AnnotatedLisp.Eval.Run
import AnnotatedLisp.Proofs.Simulation.Step

/-!
Whole runs respect simulations.

The core operations only make nodes and raise errors. Operations of the host are other people's code;
what is asked of them is that they respect the simulation whenever the evaluations they ask for do. The
second run may have more fuel than the first.
-/

namespace AnnotatedLisp
namespace Simulation

open Eval

variable {S : Simulation} {host : Host}

theorem follows_body (op : CoreOp) (args : op.operation.signature.Args) :
    S.Follows Anything (op.operation.body args) (op.operation.body args) := by
  cases op with
  | add | subtract | multiply | equal | less | greater | lessEqual | greaterEqual | not | first
  | isList | isVector | symbol | keyword | str => exact follows_pure trivial
  | divide =>
      refine (follows_unrefused ?_).bind fun _ _ => follows_pure trivial
      split <;> exact Operation.unrefused_divideAll _ _
  | count | isEmpty =>
      exact (follows_unrefused (Operation.unrefused_size _)).bind fun _ _ => follows_pure trivial
  | list | cons | rest => exact S.follows_newSeq .list _
  | vector => exact S.follows_newSeq .vector _
  | hashMap =>
      exact (follows_unrefused (Operation.unrefused_mapOf _)).bind fun entries _ =>
        S.follows_newMap entries
  | concat =>
      exact (follows_unrefused (Operation.unrefused_concatenation _)).bind fun items _ =>
        S.follows_newSeq .list items
  | nth => exact follows_unrefused (Operation.unrefused_item _ _)
  | throw => exact follows_raise (S.raises_unrefused rfl)

theorem follows_core (op : CoreOp) (args : List Value) :
    S.Follows Anything (op.operation.call args) (op.operation.call args) :=
  (follows_unrefused (unrefused_arity _ args.length)).bind fun _ _ =>
    (follows_unrefused (unrefused_convert _ args)).bind fun converted _ => follows_body op converted

/-- A simulation that the host respects too, between runs on the same levels. -/
structure Hosts (S : Simulation) (host : Host) : Prop where
  levels : ∀ {a b : Context}, S.contexts a b → a.limit = b.limit ∧ a.depth = b.depth
  top : S.contexts (.top false) (.top false)
  refuses : ∀ limit : Nat, S.raises (.depthExceeded limit)
  values : S.RecordsValues
  call : ∀ {e e' : Value → ScopeId → Eval Value},
    (∀ (form : Value) {scope : ScopeId}, S.owns scope →
      S.Follows Anything (e form scope) (e' form scope)) →
    ∀ (name : String) (scope : ScopeId) (args : List Value),
      S.Follows Anything (host.call e name scope args) (host.call e' name scope args)

/-- A host that provides nothing respects every simulation. -/
theorem hosts_none (levels : ∀ {a b : Context}, S.contexts a b → a.limit = b.limit ∧ a.depth = b.depth)
    (top : S.contexts (.top false) (.top false))
    (refuses : ∀ limit : Nat, S.raises (.depthExceeded limit)) (values : S.RecordsValues) :
    S.Hosts Host.none where
  levels := levels
  top := top
  refuses := refuses
  values := values
  call _ _ _ _ := follows_raise (S.raises_unrefused rfl)

section Loop

variable {loop loop' : Context → List NodeId → Value → ScopeId → Eval Value} {a b : Context}

theorem follows_enterWith (hosts : S.Hosts host)
    (loops : ∀ {a b : Context} (form : Value) {scope : ScopeId}, S.contexts a b → S.owns scope →
      S.Follows Anything (loop a [] form scope) (loop' b [] form scope))
    (contexts : S.contexts a b) {scope : ScopeId} (own : S.owns scope) (form : Value) :
    S.Follows Anything (Run.enterWith loop a form scope) (Run.enterWith loop' b form scope) := by
  obtain ⟨limit, depth⟩ := hosts.levels contexts
  rw [Run.enterWith, Run.enterWith]
  rw [← limit, ← depth, onFreshStack_eq, onFreshStack_eq]
  split
  · exact follows_raise (hosts.refuses a.limit)
  · split <;> exact loops form contexts own

theorem follows_applyWith (hosts : S.Hosts host)
    (loops : ∀ {a b : Context} (form : Value) {scope : ScopeId}, S.contexts a b → S.owns scope →
      S.Follows Anything (loop a [] form scope) (loop' b [] form scope))
    (operation : Native) (args : List Value) :
    S.Follows Anything (Run.applyWith host loop operation args)
      (Run.applyWith host loop' operation args) := by
  cases operation with
  | core op => exact follows_core op args
  | host name scope =>
      exact hosts.call (fun form _ own => follows_enterWith hosts loops hosts.top own form)
        name scope args

theorem follows_evaluator (hosts : S.Hosts host)
    (loops : ∀ {a b : Context} (form : Value) {scope : ScopeId}, S.contexts a b → S.owns scope →
      S.Follows Anything (loop a [] form scope) (loop' b [] form scope))
    {fuel fuel' : Nat} (more : fuel ≤ fuel') :
    S.Evaluators (Run.evaluator host fuel loop) (Run.evaluator host fuel' loop') where
  enter form _ contexts own := follows_enterWith hosts loops contexts own form
  expand form scope contexts _ :=
    follows_expansion (fun form _ contexts own => follows_enterWith hosts loops contexts own form)
      contexts scope more form
  apply := follows_applyWith hosts loops

theorem follows_stampLeft (contexts : S.contexts a b) (on : a.annotate = true)
    (off : b.annotate = false) (node : NodeId) {change : Stamps → Stamps}
    (records : S.records change) :
    S.Follows Anything (a.stamp node change) (pure ()) := by
  intro s t related
  simp only [Context.stamp, on]
  exact .ok trivial (S.stampLeft node records contexts on off related)

theorem follows_stampRight (contexts : S.contexts a b) (off : a.annotate = false)
    (on : b.annotate = true) (node : NodeId) {change : Stamps → Stamps} (records : S.records change) :
    S.Follows Anything (pure ()) (b.stamp node change) := by
  intro s t related
  simp only [Context.stamp, on]
  exact .ok trivial (S.stampRight node records contexts off on related)

theorem stampAll_of_off (off : a.annotate = false) (visited : List NodeId) (value : Value) :
    Run.stampAll a visited value = pure () := by
  induction visited with
  | nil => rfl
  | cons node visited ih =>
      change (a.stamp node _ >>= fun _ => Run.stampAll a visited value) = pure ()
      rw [ih, Context.stamp, off]
      rfl

/-- Only runs of which one makes stamps and the other does not may have passed through other nodes. -/
theorem follows_stampAll (values : S.RecordsValues) (contexts : S.contexts a b)
    {visited visited' : List NodeId} (ledger : a.annotate = b.annotate → visited = visited')
    (value : Value) :
    S.Follows Anything (Run.stampAll a visited value) (Run.stampAll b visited' value) := by
  cases on : a.annotate <;> cases on' : b.annotate
  · rw [stampAll_of_off on, stampAll_of_off on']
    exact follows_pure trivial
  · rw [stampAll_of_off on]
    induction visited' generalizing visited with
    | nil => exact follows_pure trivial
    | cons node visited' ih =>
        exact (follows_stampRight contexts on on' node (values value)).bind fun _ _ =>
          ih fun _ => rfl
  · rw [stampAll_of_off on']
    induction visited generalizing visited' with
    | nil => exact follows_pure trivial
    | cons node visited ih =>
        exact (follows_stampLeft contexts on on' node (values value)).bind fun _ _ =>
          ih fun _ => rfl
  · rw [← ledger (on.trans on'.symm)]
    exact follows_forM (fun node => follows_stamp contexts node (values value)) visited

end Loop

theorem follows_loop (hosts : S.Hosts host) {fuel fuel' : Nat} (more : fuel ≤ fuel') {a b : Context}
    (contexts : S.contexts a b) {scope : ScopeId} (own : S.owns scope)
    {visited visited' : List NodeId} (ledger : a.annotate = b.annotate → visited = visited')
    (form : Value) :
    S.Follows Anything (Run.loop host fuel a visited form scope)
      (Run.loop host fuel' b visited' form scope) := by
  -- The fuel of the first run bounds its steps, its nesting and its expansions alike.
  induction fuel generalizing fuel' a b scope visited visited' form with
  | zero => exact follows_exhausted _
  | succ fuel ih =>
      obtain ⟨fuel', rfl⟩ : ∃ n, fuel' = n + 1 := ⟨fuel' - 1, by omega⟩
      have more : fuel ≤ fuel' := by omega
      have evs : S.Evaluators (Run.evaluator host fuel (Run.loop host fuel))
          (Run.evaluator host fuel' (Run.loop host fuel')) :=
        follows_evaluator hosts (fun form _ contexts own => ih more contexts own (fun _ => rfl) form)
          more
      rw [Run.loop, Run.loop]
      refine (follows_resolve evs contexts own form).bind fun expanded _ => ?_
      refine (follows_step hosts.values evs contexts own expanded).bind fun step goesOn => ?_
      have ledger : a.annotate = b.annotate →
          (if a.annotate then Run.visit expanded (Run.visit form visited) else []) =
            if b.annotate then Run.visit expanded (Run.visit form visited') else [] := by
        intro same
        rw [ledger same, same]
      cases step with
      | done value =>
          exact (follows_stampAll hosts.values contexts ledger value).bind fun _ _ => follows_pure trivial
      | tail next inner => exact ih more contexts goesOn ledger next

section Results

variable {a b : Context} {scope : ScopeId} {fuel fuel' : Nat}

theorem follows_evaluate (hosts : S.Hosts host) (more : fuel ≤ fuel') (contexts : S.contexts a b)
    (own : S.owns scope) (form : Value) :
    S.Follows Anything (evaluate host fuel a form scope)
      (evaluate host fuel' b form scope) :=
  follows_enterWith hosts
    (fun form _ contexts own => follows_loop hosts more contexts own (fun _ => rfl) form)
    contexts own form

theorem follows_macroexpand (hosts : S.Hosts host) (more : fuel ≤ fuel') (contexts : S.contexts a b)
    (scope : ScopeId) (form : Value) :
    S.Follows Anything (macroexpand host fuel a form scope)
      (macroexpand host fuel' b form scope) :=
  follows_expansion
    (fun form _ contexts own => follows_evaluate hosts more contexts own form)
    contexts scope more form

end Results

end Simulation

theorem Invariant.hosts_none (I : Invariant) (top : I.contexts (.top false))
    (refuses : ∀ limit : Nat, I.raises (.depthExceeded limit)) : I.simulation.Hosts Host.none :=
  Simulation.hosts_none (fun contexts => contexts.1 ▸ ⟨rfl, rfl⟩) ⟨rfl, top⟩ refuses .evaluated

end AnnotatedLisp
