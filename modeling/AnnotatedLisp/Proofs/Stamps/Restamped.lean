import AnnotatedLisp.Proofs.Simulation.Host
import AnnotatedLisp.Proofs.Stamps.Visits

/-!
The values recorded while an evaluation goes on.

The value of an evaluation is recorded when it is there. Until then, the value recorded at a node only
changes by the evaluations nested in it: it stays what it was, or it is the value of a nested evaluation
which has passed through the node and has come to its end. So this is all that an evaluation leaves behind
that fails, whether its error is caught further up or not.

A step is followed with an evaluator that evaluates what the run requests and nothing else. The step does
not notice, and everything that this evaluator does is known from the nested runs.
-/

namespace AnnotatedLisp

open Eval

section Relations

variable (host : Host)

/-- The second evaluation is nested in the first, at any depth. -/
def Nested : Context × Config → Context × Config → Prop :=
  Relation.TransGen fun p q => Requests host p.1 p.2 q.1 q.2

/-- The evaluation passes through the node and comes to the value. -/
def Reaches (q : Context × Config) (node : NodeId) (value : Value) : Prop :=
  Visits host q.1 q.2 node ∧ ∃ t, q.2.Ends host q.1 (.ok value) t

/-- From `s` to `t` the value recorded at the node stays, or it is that of an evaluation nested in `p`
which has passed through the node. -/
def Restamped (p : Context × Config) (node : NodeId) (s t : Store) : Prop :=
  (t.stampsAt node).evaluated = (s.stampsAt node).evaluated ∨
    ∃ q value, Nested host p q ∧ Reaches host q node value ∧
      (t.stampsAt node).evaluated = some value

end Relations

variable {host : Host} {ctx ctx' : Context} {a b c : Config} {p q : Context × Config} {node : NodeId}
  {s t u : Store}

theorem Nested.later (resolves : Resolves host ctx a b) (steps : Steps host ctx b c)
    (nested : Nested host (ctx, c) q) : Nested host (ctx, a) q := by
  obtain ⟨r, requests, rest⟩ := Relation.TransGen.head'_iff.1 nested
  exact .head' (.later resolves steps requests) rest

namespace Restamped

theorem of_evaluated_eq (same : (t.stampsAt node).evaluated = (s.stampsAt node).evaluated) :
    Restamped host p node s t :=
  .inl same

theorem trans (first : Restamped host p node s t) (second : Restamped host p node t u) :
    Restamped host p node s u := by
  obtain kept | nested := second
  · rwa [Restamped, kept]
  · exact .inr nested

theorem mono (more : ∀ r, Nested host q r → Nested host p r) (inner : Restamped host q node s t) :
    Restamped host p node s t :=
  inner.imp_right fun ⟨r, value, nested, rest⟩ => ⟨r, value, more r nested, rest⟩

end Restamped

/-- The run of which the stores are watched since `s`. Steps that record no value are respected. -/
def Simulation.restamping (host : Host) (p : Context × Config) (node : NodeId) (s : Store) :
    Simulation where
  stores t t' := t = t' ∧ Restamped host p node s t
  contexts a b := a = b
  owns _ := True
  raises _ := True
  raises_unrefused _ := trivial
  scopes_eq related := congrArg Store.scopes related.1
  nextNode_eq related := congrArg Store.nextNode related.1
  countNode := by
    rintro t _ ⟨rfl, restamped⟩
    exact ⟨rfl, restamped⟩
  addScope := by
    rintro t _ outer ⟨rfl, restamped⟩
    exact ⟨rfl, restamped⟩
  owns_new _ := trivial
  define := by
    rintro t _ scope name value _ ⟨rfl, restamped⟩
    exact ⟨rfl, restamped⟩
  nested := @Context.nested_eq
  records change := ∀ stamps, (change stamps).evaluated = stamps.evaluated
  records_applied _ _ := rfl
  records_expansion _ _ := rfl
  stamp := by
    rintro a _ t _ change other keeps rfl _ _ ⟨rfl, restamped⟩
    refine ⟨rfl, restamped.trans (.of_evaluated_eq ?_)⟩
    rw [Store.stampsAt_stamp]
    split
    · exact keeps _
    · rfl
  stampLeft := by
    rintro a _ t t' change _ _ rfl on off _
    exact absurd (on.symm.trans off) Bool.noConfusion
  stampRight := by
    rintro a _ t t' change _ _ rfl off on _
    exact absurd (on.symm.trans off) Bool.noConfusion

namespace Simulation

theorem restamping_follows {α : Type} {x : Eval α}
    (restamps : ∀ ⦃u result t⦄, x.attempt u = .ok result t → Restamped host p node u t) :
    (restamping host p node s).Follows Anything x x := by
  rintro u _ ⟨rfl, restamped⟩
  cases ends : x u with
  | ok value t => exact .ok trivial ⟨rfl, restamped.trans (restamps (attempt_of_ok ends))⟩
  | error stop t =>
      cases stop with
      | error e => exact .error trivial ⟨rfl, restamped.trans (restamps (attempt_of_error ends))⟩
      | exhausted => exact .exhausted

theorem restamped_of_follows {α : Type} {fits : α → Prop} {x : Eval α}
    (follows : (restamping host p node s).Follows fits x x) {result : Except Error α}
    (ends : x.attempt s = .ok result t) : Restamped host p node s t := by
  obtain ⟨_, again, rfl, restamped⟩ := follows.attempt_eq ⟨rfl, .of_evaluated_eq rfl⟩ ends
  exact restamped

end Simulation

/-- What a native operation does, evaluations included that it starts, leaves all stamps alone. -/
theorem stamps_of_apply (regular : host.Regular) {fuel : Nat} {operation : Native} {args : List Value}
    {result : Except Error Value}
    (ends : ((Run.evaluatorAt host fuel).apply operation args).attempt s = .ok result t) :
    t.stamps = s.stamps := by
  have lax : (Invariant.stampFree s.stamps).simulation.Lax := by
    refine ⟨fun _ => trivial, ?_⟩
    rintro u _ text ⟨rfl, kept⟩
    exact ⟨rfl, kept⟩
  have hosts := Simulation.hosts_of_regular regular lax (fun contexts => contexts.1 ▸ ⟨rfl, rfl⟩)
    ⟨rfl, rfl⟩ (fun _ => trivial) .evaluated
  have follows := Simulation.follows_applyWith hosts
    (fun form _ contexts own =>
      Simulation.follows_loop hosts (Nat.le_refl fuel) contexts own (fun _ => rfl) form)
    operation args
  obtain ⟨_, again, rfl, kept⟩ := follows.attempt_eq ⟨rfl, rfl⟩ ends
  exact kept

open Classical in
/-- Evaluates what the evaluation of `a` requests, and nothing else. -/
noncomputable def Run.enterRequested (host : Host) (fuel : Nat) (ctx : Context) (a : Config) :
    Context → Value → ScopeId → Eval Value :=
  fun ctx' form scope s =>
    if Requests host ctx a ctx' ⟨form, scope, s⟩ then
      (Run.evaluatorAt host fuel).enter ctx' form scope s
    else Eval.exhausted s

section Steps

variable {fuel : Nat}

theorem sameUnder_of_requests (requests : Requests host ctx a ctx' c) :
    SameUnder host fuel (Run.enterRequested host fuel ctx a) ctx.limit ctx' c := by
  obtain ⟨depth, rfl⟩ := requests.context_eq
  exact (if_pos requests).symm

/-- Whatever the evaluation of `a` requests keeps the value recorded at the node, or it is recorded by an
evaluation nested in that of `a`. -/
def Requested (host : Host) (fuel : Nat) (ctx : Context) (a : Config) (node : NodeId) : Prop :=
  ∀ ⦃ctx' c⦄, Requests host ctx a ctx' c → ∀ ⦃result t⦄,
    ((Run.evaluatorAt host fuel).enter ctx' c.form c.scope).attempt c.store = .ok result t →
      Restamped host (ctx, a) node c.store t

variable (regular : host.Regular) (requested : Requested host fuel ctx a node)

include regular requested

theorem evaluators_requested :
    (Simulation.restamping host (ctx, a) node s).Evaluators
      (Run.evaluatorBy host fuel (Run.enterRequested host fuel ctx a))
      (Run.evaluatorBy host fuel (Run.enterRequested host fuel ctx a)) := by
  have enters (form : Value) (scope : ScopeId) (ctx' : Context) :
      (Simulation.restamping host (ctx, a) node s).Follows Anything
        (Run.enterRequested host fuel ctx a ctx' form scope)
        (Run.enterRequested host fuel ctx a ctx' form scope) := by
    refine Simulation.restamping_follows fun u result t ends => ?_
    by_cases requests : Requests host ctx a ctx' ⟨form, scope, u⟩
    · have same : Run.enterRequested host fuel ctx a ctx' form scope u =
          (Run.evaluatorAt host fuel).enter ctx' form scope u := if_pos requests
      rw [attempt_congr same] at ends
      exact requested requests ends
    · have same : Run.enterRequested host fuel ctx a ctx' form scope u = (Eval.exhausted : Eval Value) u :=
        if_neg requests
      rw [attempt_congr same] at ends
      cases ends
  refine ⟨?_, ?_, ?_⟩
  · rintro ctx' _ form scope rfl _
    exact enters form scope ctx'
  · rintro ctx' _ form scope rfl _
    refine Simulation.follows_expansion ?_ rfl scope (Nat.le_refl fuel) form
    rintro ctx' _ form scope rfl _
    exact enters form scope ctx'
  · intro operation args
    refine Simulation.restamping_follows fun u result t ends => .of_evaluated_eq ?_
    rw [Store.stampsAt, Store.stampsAt, stamps_of_apply regular ends]

theorem restamped_of_resolve {result : Except Error Value}
    (ends : ((Run.evaluatorAt host fuel).resolve ctx a.scope a.form).attempt a.store = .ok result t) :
    Restamped host (ctx, a) node a.store t := by
  rw [attempt_congr (resolve_congr fun b c unfolded opens =>
    sameUnder_of_requests (.macroBody unfolded opens))] at ends
  exact Simulation.restamped_of_follows
    (Simulation.follows_resolve (evaluators_requested regular requested) rfl trivial a.form) ends

omit regular requested in
/-- A value that is recorded as soon as it is made. -/
theorem restamped_of_stamped (on : ctx.annotate = true) {label : NodeId} {x : Eval Value}
    (follows : (Simulation.restamping host p node s).Follows Anything x x)
    {result : Except Error Value}
    (ends : (do let value ← x
                ctx.stamp label fun stamps => { stamps with evaluated := some value }
                return value : Eval Value).attempt s = .ok result t) :
    Restamped host p node s t ∨
      ∃ value, result = .ok value ∧ label = node ∧ (t.stampsAt node).evaluated = some value := by
  obtain ⟨e, rfl, fails⟩ | ⟨value, u, made, ends⟩ := attempt_bind_eq_iff.1 ends
  · exact .inl (Simulation.restamped_of_follows follows fails)
  rw [attempt, bind_of_ok (stamp_apply on label _ u)] at ends
  cases ends
  by_cases here : label = node
  · exact .inr ⟨value, rfl, here, by rw [Store.stampsAt_stamp, if_pos here]⟩
  · refine .inl ((Simulation.restamped_of_follows follows (attempt_of_ok made)).trans
      (.of_evaluated_eq ?_))
    rw [Store.stampsAt_stamp, if_neg here]

/-- The value of a vector or a map is recorded when its parts have been evaluated. -/
theorem restamped_of_atom (on : ctx.annotate = true) {form : Value} {scope : ScopeId}
    {result : Except Error Value}
    (ends : ((Run.evaluatorBy host fuel (Run.enterRequested host fuel ctx a)).evalAtom ctx scope
      form).attempt s = .ok result t) :
    Restamped host (ctx, a) node s t ∨
      ∃ value, result = .ok value ∧ form.nodeLabel? = some node ∧
        (t.stampsAt node).evaluated = some value := by
  have evs := evaluators_requested (s := s) regular requested
  rw [Evaluator.evalAtom.eq_def] at ends
  split at ends
  · exact .inl (Simulation.restamped_of_follows (Simulation.follows_lookup scope _) ends)
  next label kind items =>
    rw [← bind_assoc] at ends
    obtain restamped | ⟨value, same, here, evaluated⟩ := restamped_of_stamped on
      ((Simulation.follows_enterAll evs rfl trivial items).bind fun values _ =>
        Simulation.follows_newSeq _ .vector values) ends
    · exact .inl restamped
    · exact .inr ⟨value, same, congrArg some here, evaluated⟩
  next label entries =>
    rw [← bind_assoc] at ends
    obtain restamped | ⟨value, same, here, evaluated⟩ := restamped_of_stamped on
      ((Simulation.follows_enterEntries evs rfl trivial entries).bind fun values _ =>
        Simulation.follows_newMap _ values) ends
    · exact .inl restamped
    · exact .inr ⟨value, same, congrArg some here, evaluated⟩
  · cases ends
    exact .inl (.of_evaluated_eq rfl)

/-- The step of a list records no value. -/
theorem restamped_of_step (on : ctx.annotate = true) (resolves : Resolves host ctx a b)
    {result : Except Error Step}
    (ends : ((Run.evaluatorAt host fuel).step ctx b.scope b.form).attempt b.store = .ok result t) :
    Restamped host (ctx, a) node b.store t ∨
      ∃ value, result = .ok (.done value) ∧ b.form.nodeLabel? = some node ∧
        (t.stampsAt node).evaluated = some value := by
  have evs := evaluators_requested (s := b.store) regular requested
  rw [attempt_congr (step_congr fun ctx' c requests =>
    sameUnder_of_requests (.step resolves requests))] at ends
  cases list : b.form.isList with
  | true =>
      exact .inl (Simulation.restamped_of_follows
        (Simulation.follows_step_list evs rfl trivial list) ends)
  | false =>
      rw [Evaluator.step_of_atom _ _ _ list] at ends
      obtain ⟨e, rfl, fails⟩ | ⟨value, u, evaluated, done⟩ := attempt_bind_eq_iff.1 ends
      · obtain restamped | ⟨_, same, _⟩ := restamped_of_atom regular requested on fails
        · exact .inl restamped
        · cases same
      · cases done
        obtain restamped | ⟨_, same, here⟩ :=
          restamped_of_atom regular requested on (attempt_of_ok evaluated)
        · exact .inl restamped
        · cases same
          exact .inr ⟨value, rfl, here⟩

end Steps

section Runs

variable {fuel : Nat}

theorem annotate_of_requests (on : ctx.annotate = true) (requests : Requests host ctx a ctx' c) :
    ctx'.annotate = true := by
  obtain ⟨depth, rfl⟩ := requests.context_eq
  exact on

/-- A nested evaluation that ends in a value records it where it has passed through. -/
theorem restamped_of_reaches (requests : Requests host ctx a ctx' c) {value : Value}
    (ends : c.Ends host ctx' (.ok value) t) (visits : Visits host ctx' c node)
    (evaluated : (t.stampsAt node).evaluated = some value) :
    Restamped host (ctx, a) node s t :=
  .inr ⟨(ctx', c), value, .single requests, ⟨visits, t, ends⟩, evaluated⟩

/-- The nodes that a step adds to those to be stamped in the end are passed through. -/
theorem visits_of_mem_visit (resolves : Resolves host ctx a b) {visited : List NodeId}
    (mem : node ∈ Run.visit b.form (Run.visit a.form visited)) :
    node ∈ visited ∨ Visits host ctx a node := by
  obtain ⟨_, labelled⟩ | mem := mem_visit_iff.1 mem
  · exact .inr (.resolved resolves labelled)
  · obtain ⟨_, labelled⟩ | old := mem_visit_iff.1 mem
    · exact .inr (.entered labelled)
    · exact .inl old

theorem restamped_of_loop (regular : host.Regular) (on : ctx.annotate = true)
    {visited : List NodeId} {result : Except Error Value}
    (ends : (Run.loop host fuel ctx visited a.form a.scope).attempt a.store = .ok result t) :
    Restamped host (ctx, a) node a.store t ∨
      ∃ value, result = .ok value ∧ (node ∈ visited ∨ Visits host ctx a node) ∧
        (t.stampsAt node).evaluated = some value := by
  -- The induction is on the fuel: it covers the nested levels and the tail steps on this one.
  induction fuel generalizing ctx a visited result t with
  | zero => cases ends
  | succ fuel ih =>
      have requested : Requested host fuel ctx a node := by
        intro ctx' c requests result t ends
        obtain inner | ⟨rfl, rfl⟩ := loop_of_evaluate ends
        · obtain restamped | ⟨value, rfl, seen, evaluated⟩ :=
            ih (annotate_of_requests on requests) inner
          · exact restamped.mono fun r nested => .head requests nested
          · have visits := seen.resolve_left List.not_mem_nil
            exact restamped_of_reaches requests ⟨fuel, ends⟩ visits evaluated
        · exact .of_evaluated_eq rfl
      rw [Run.loop] at ends
      obtain ⟨e, rfl, fails⟩ | ⟨g, u, resolved, ends⟩ := attempt_bind_eq_iff.1 ends
      · exact .inl (restamped_of_resolve regular requested fails)
      have resolves : Resolves host ctx a ⟨g, a.scope, u⟩ := ⟨rfl, fuel, resolved⟩
      have first := restamped_of_resolve regular requested (attempt_of_ok resolved)
      obtain ⟨e, rfl, fails⟩ | ⟨step, v, stepped, ends⟩ := attempt_bind_eq_iff.1 ends
      · obtain second | ⟨_, same, _⟩ := restamped_of_step regular requested on resolves fails
        · exact .inl (first.trans second)
        · cases same
      have second := restamped_of_step regular requested on resolves (attempt_of_ok stepped)
      simp only [on, if_true] at ends
      cases step with
      | done value =>
          obtain ⟨w, stamped, stamps⟩ :=
            stampAll_apply on (Run.visit g (Run.visit a.form visited)) value v
          dsimp only at ends
          rw [attempt, bind_of_ok stamped] at ends
          cases ends
          by_cases mem : node ∈ Run.visit g (Run.visit a.form visited)
          · exact .inr ⟨value, rfl, visits_of_mem_visit resolves mem, by rw [stamps, if_pos mem]⟩
          have kept : (t.stampsAt node).evaluated = (v.stampsAt node).evaluated := by
            rw [stamps, if_neg mem]
          obtain second | ⟨_, same, labelled, evaluated⟩ := second
          · exact .inl ((first.trans second).trans (.of_evaluated_eq kept))
          · cases same
            exact .inr ⟨value, rfl, .inr (.resolved resolves labelled), kept.trans evaluated⟩
      | tail next inner =>
          have steps : Steps host ctx ⟨g, a.scope, u⟩ ⟨next, inner, v⟩ := ⟨fuel, stepped⟩
          have second : Restamped host (ctx, a) node u v := by
            refine second.resolve_right ?_
            rintro ⟨_, same, _⟩
            cases same
          obtain third | ⟨value, rfl, seen, evaluated⟩ := ih (a := ⟨next, inner, v⟩) on ends
          · exact .inl ((first.trans second).trans
              (third.mono fun r nested => nested.later resolves steps))
          · refine .inr ⟨value, rfl, ?_, evaluated⟩
            obtain mem | visits := seen
            · exact visits_of_mem_visit resolves mem
            · exact .inr (.later resolves steps visits)

end Runs

/-- What is recorded as the value of a node is right. An evaluation that comes to a value leaves it at its
own node and at all others that it has passed through. One that fails has changed what is recorded only
where an evaluation nested in it has passed through and has come to the value which is recorded. -/
theorem evaluated_of_evaluates (host : Host) (regular : host.Regular) (ctx : Context)
    (on : ctx.annotate = true) (form : Value) (scope : ScopeId) (s t : Store) (node : NodeId) :
    (∀ value, Evaluates host ctx form scope s (.ok value) t →
      Visits host ctx ⟨form, scope, s⟩ node → (t.stampsAt node).evaluated = some value) ∧
    (∀ error, Evaluates host ctx form scope s (.error error) t →
      (t.stampsAt node).evaluated ≠ (s.stampsAt node).evaluated →
      ∃ ctx' c value, Nested host (ctx, ⟨form, scope, s⟩) (ctx', c) ∧ Visits host ctx' c node ∧
        (∃ u, c.Ends host ctx' (.ok value) u) ∧ (t.stampsAt node).evaluated = some value) := by
  constructor
  · intro value ends visits
    exact evaluated_of_visits regular.monotone on (a := ⟨form, scope, s⟩) ends visits
  · rintro error ⟨fuel, ends⟩ changed
    obtain ends | ⟨_, rfl⟩ := loop_of_evaluate ends
    · obtain restamped | ⟨_, same, _⟩ := restamped_of_loop (a := ⟨form, scope, s⟩) regular on ends
      · obtain ⟨⟨ctx', c⟩, value, nested, ⟨visits, ends⟩, evaluated⟩ :=
          restamped.resolve_left changed
        exact ⟨ctx', c, value, nested, visits, ends, evaluated⟩
      · cases same
    · exact absurd rfl changed

/-- `(if true (quote x))` leaves its value at the branch. `(do [nil] y)` fails after the vector has been
evaluated, which keeps its stamp. -/
theorem evaluated_of_branch_and_failure :
    let branch : Value := .seq 2 .list [.symbol "quote", .symbol "x"]
    let form : Value := .seq 1 .list [.symbol "if", .bool true, branch]
    let failing : Value := .seq 4 .list [.symbol "do", .seq 3 .vector [.nil], .symbol "y"]
    let s : Store := ⟨#[⟨[], none⟩], 5, ∅, ""⟩
    Host.none.Regular ∧
    (∃ t, Evaluates Host.none (.top true) form 0 s (.ok (.symbol "x")) t ∧
      (t.stampsAt 2).evaluated = some (.symbol "x")) ∧
    (∃ t, Evaluates Host.none (.top true) failing 0 s (.error (.unboundSymbol "y")) t ∧
      ∃ ctx' c value, Nested Host.none (.top true, ⟨failing, 0, s⟩) (ctx', c) ∧
        Visits Host.none ctx' c 3 ∧ (∃ u, c.Ends Host.none ctx' (.ok value) u) ∧
        (t.stampsAt 3).evaluated = some value) := by
  intro branch form failing s
  have succeeds : ∃ t, Evaluates Host.none (.top true) form 0 s (.ok (.symbol "x")) t := ⟨_, 3, rfl⟩
  have fails : ∃ t, Evaluates Host.none (.top true) failing 0 s (.error (.unboundSymbol "y")) t ∧
      (t.stampsAt 3).evaluated = some (.seq 5 .vector [.nil]) := ⟨_, ⟨3, rfl⟩, rfl⟩
  have visits : Visits Host.none (.top true) ⟨form, 0, s⟩ 2 :=
    .later (b := ⟨form, 0, s⟩) (c := ⟨branch, 0, s⟩) ⟨rfl, 1, rfl⟩ ⟨1, rfl⟩ (.entered rfl)
  obtain ⟨t, succeeds⟩ := succeeds
  obtain ⟨u, fails, changed⟩ := fails
  refine ⟨Host.none_regular, ⟨t, succeeds, ?_⟩, u, fails, ?_⟩
  · exact (evaluated_of_evaluates Host.none Host.none_regular (.top true) rfl form 0 s t 2).1 _
      succeeds visits
  · refine (evaluated_of_evaluates Host.none Host.none_regular (.top true) rfl failing 0 s u 3).2 _
      fails ?_
    rw [changed]
    exact nofun

end AnnotatedLisp
