import AnnotatedLisp.Proofs.Plain

/-!
The nodes that an evaluation passes through.

On its own level an evaluation goes from a form to what the form expands into, and from there to the form
that takes its place: a branch, the last form of a `do` or a `let`, the body of a function, a handler, the
builder of a template, the value of an `eval-when-execute`. Whatever was recorded at these nodes on the way,
by this evaluation or by others nested in it, in the end each of them is stamped with the value.
-/

namespace AnnotatedLisp

open Eval

/-- The evaluation of the first form passes through the node. -/
inductive Visits (host : Host) (ctx : Context) : Config → NodeId → Prop
  | entered {a : Config} {node : NodeId} (labelled : a.form.nodeLabel? = some node) :
      Visits host ctx a node
  | resolved {a b : Config} {node : NodeId} (resolves : Resolves host ctx a b)
      (labelled : b.form.nodeLabel? = some node) : Visits host ctx a node
  | later {a b c : Config} {node : NodeId} (resolves : Resolves host ctx a b)
      (steps : Steps host ctx b c) (visits : Visits host ctx c node) : Visits host ctx a node

/-- What is passed through from the form that takes the place of another is passed through from the other.
Each tail rule is one of these steps, whatever stamps are made before it. -/
theorem visits_of_tailRule {host : Host} (monotone : host.Monotone) {ctx : Context} {a b : Config}
    (plain : a.store.calledMacro? a.scope a.form = none)
    (rule : TailRule host ctx a.scope (a.store.noted ctx a.scope a.form) a.form b) :
    ∃ t, t.unstamped = b.store.unstamped ∧
      ∀ node, Visits host ctx ⟨b.form, b.scope, t⟩ node → Visits host ctx a node := by
  obtain ⟨t, same, _, steps⟩ := exists_step_of_tailRule monotone rule
  obtain ⟨fuel, stepped⟩ := steps.exists
  have resolves : Resolves host ctx a ⟨a.form, a.scope, a.store.noted ctx a.scope a.form⟩ :=
    (resolves_iff_of_plain plain).2 rfl
  exact ⟨t, same, fun node visits => .later resolves ⟨fuel, stepped⟩ visits⟩

section Unique

variable {host : Host} (monotone : host.Monotone) {ctx : Context}

include monotone

theorem evaluators_of_monotone {fuel fuel' : Nat} (more : fuel ≤ fuel') :
    Invariant.free.simulation.Evaluators (Run.evaluatorAt host fuel)
      (Run.evaluatorAt host fuel') :=
  have hosts := Simulation.hosts_of_monotone monotone
  Simulation.follows_evaluator hosts
    (fun form _ contexts own => Simulation.follows_loop hosts more contexts own (fun _ => rfl) form)
    more

theorem resolve_growing (ctx : Context) (form : Value) (scope : ScopeId) :
    Growing fun fuel => (Run.evaluatorAt host fuel).resolve ctx scope form :=
  fun _ _ more => follows_iff_refines.1 <|
    Simulation.follows_resolve (evaluators_of_monotone monotone more) ⟨rfl, trivial⟩ trivial form

theorem step_growing (ctx : Context) (form : Value) (scope : ScopeId) :
    Growing fun fuel => (Run.evaluatorAt host fuel).step ctx scope form :=
  have hosts := Simulation.hosts_of_monotone monotone
  fun _ _ more => follows_iff_refines.1 <|
    (Simulation.follows_step hosts.values (evaluators_of_monotone monotone more) ⟨rfl, trivial⟩ trivial
      form).mono fun _ _ => trivial

theorem Resolves.unique {a b b' : Config} (h : Resolves host ctx a b) (h' : Resolves host ctx a b') :
    b = b' := by
  obtain ⟨form, scope, s⟩ := a
  obtain ⟨_, _, _⟩ := b
  obtain ⟨_, _, _⟩ := b'
  obtain ⟨rfl, fuel, resolved⟩ := h
  obtain ⟨rfl, fuel', resolved'⟩ := h'
  obtain ⟨same, rfl⟩ := (resolve_growing monotone ctx form scope).ends_unique
    ⟨fuel, attempt_eq_value_iff.2 resolved⟩ ⟨fuel', attempt_eq_value_iff.2 resolved'⟩
  cases same
  rfl

/-- The step that a form takes does not depend on the fuel. -/
theorem step_unique {form : Value} {scope : ScopeId} {s t t' : Store} {fuel fuel' : Nat}
    {step step' : Step} (h : (Run.evaluatorAt host fuel).step ctx scope form s = .ok step t)
    (h' : (Run.evaluatorAt host fuel').step ctx scope form s = .ok step' t') :
    step = step' ∧ t = t' := by
  obtain ⟨same, rfl⟩ := (step_growing monotone ctx form scope).ends_unique
    ⟨fuel, attempt_eq_value_iff.2 h⟩ ⟨fuel', attempt_eq_value_iff.2 h'⟩
  cases same
  exact ⟨rfl, rfl⟩

end Unique

section Stamping

variable {ctx : Context} {node : NodeId}

theorem mem_visit_iff {form : Value} {visited : List NodeId} :
    node ∈ Run.visit form visited ↔
      form.isList = true ∧ form.nodeLabel? = some node ∨ node ∈ visited := by
  cases form with
  | seq label kind items =>
      cases kind with
      | list => simp [Run.visit, Form.isList, Form.nodeLabel?, eq_comm]
      | vector => simp [Run.visit, Form.isList]
  | _ => simp [Run.visit, Form.isList]

theorem stamp_apply (on : ctx.annotate = true) (node : NodeId) (change : Stamps → Stamps) (s : Store) :
    ctx.stamp node change s = .ok () (s.stamp node change) := by
  rw [Context.stamp, on]
  rfl

/-- In the end the nodes that were passed through are stamped with the value, and no others. -/
theorem stampAll_apply (on : ctx.annotate = true) (visited : List NodeId) (value : Value) (s : Store) :
    ∃ t, Run.stampAll ctx visited value s = .ok () t ∧ ∀ node,
      (t.stampsAt node).evaluated =
        if node ∈ visited then some value else (s.stampsAt node).evaluated := by
  induction visited generalizing s with
  | nil => exact ⟨s, rfl, fun node => by simp⟩
  | cons first visited ih =>
      obtain ⟨t, stamped, stamps⟩ := ih (s.stamp first fun stamps =>
        { stamps with evaluated := some value })
      refine ⟨t, (bind_of_ok (stamp_apply on first _ s)).trans stamped, fun node => ?_⟩
      rw [stamps, Store.stampsAt_stamp]
      by_cases rest : node ∈ visited
      · simp [rest]
      · by_cases here : first = node
        · simp [here]
        · simp [here, rest, Ne.symm here]

theorem evaluated_of_stamp (on : ctx.annotate = true) {value value' : Value} {s t : Store}
    (h : (do ctx.stamp node fun stamps => { stamps with evaluated := some value }
             return value : Eval Value) s = .ok value' t) :
    (t.stampsAt node).evaluated = some value' := by
  rw [bind_of_ok (stamp_apply on node _ s)] at h
  cases h
  rw [Store.stampsAt_stamp, if_pos rfl]

/-- A vector or a map is stamped with its value as soon as it has it. -/
theorem evaluated_of_atom (on : ctx.annotate = true) {ev : Evaluator} {scope : ScopeId}
    {form value : Value} (atom : form.isList = false) (labelled : form.nodeLabel? = some node)
    {s t : Store} (h : ev.evalAtom ctx scope form s = .ok value t) :
    (t.stampsAt node).evaluated = some value := by
  cases form with
  | seq label kind items =>
      cases kind with
      | list => cases atom
      | vector =>
          cases labelled
          obtain ⟨values, u, _, h⟩ := bind_eq_ok_iff.1 h
          obtain ⟨vector, v, _, h⟩ := bind_eq_ok_iff.1 h
          exact evaluated_of_stamp on h
  | map label entries =>
      cases labelled
      obtain ⟨values, u, _, h⟩ := bind_eq_ok_iff.1 h
      obtain ⟨map, v, _, h⟩ := bind_eq_ok_iff.1 h
      exact evaluated_of_stamp on h
  | _ => cases labelled

end Stamping

section Runs

variable {host : Host} {ctx : Context} {node : NodeId} {visited : List NodeId} {fuel : Nat}

/-- An evaluation takes steps until it ends, or is refused. -/
theorem loop_of_evaluate {form : Value} {scope : ScopeId} {s t : Store} {result : Except Error Value}
    (ends : (evaluate host fuel ctx form scope).attempt s = .ok result t) :
    (Run.loop host fuel ctx [] form scope).attempt s = .ok result t ∨
      result = .error (.depthExceeded ctx.limit) ∧ t = s := by
  by_cases below : ctx.depth < ctx.limit
  · rw [evaluate_eq_loop below] at ends
    exact .inl ends
  · rw [evaluate, Run.enterWith, if_pos (Nat.le_of_not_lt below)] at ends
    cases ends
    exact .inr ⟨rfl, rfl⟩

/-- The nodes of the form that a run is at and of what it expands into: lists are kept for the end of the
run, and other forms end it with the value that they have just been stamped with. -/
theorem seen_of_labelled (on : ctx.annotate = true) {form g f : Value} {scope : ScopeId}
    {s t : Store} {step : Step}
    (stepped : (Run.evaluatorAt host fuel).step ctx scope g s = .ok step t)
    (either : f = form ∧ (f.isList = false → f = g) ∨ f = g)
    (labelled : f.nodeLabel? = some node) :
    node ∈ Run.visit g (Run.visit form visited) ∨
      ∃ value, step = .done value ∧ (t.stampsAt node).evaluated = some value := by
  cases list : f.isList with
  | true =>
      refine .inl (mem_visit_iff.2 ?_)
      obtain ⟨rfl, _⟩ | rfl := either
      · exact .inr (mem_visit_iff.2 (.inl ⟨list, labelled⟩))
      · exact .inl ⟨list, labelled⟩
  | false =>
      obtain rfl : f = g := either.elim (fun same => same.2 list) id
      rw [Evaluator.step_of_atom _ _ _ list] at stepped
      obtain ⟨value, u, evaluated, done⟩ := bind_eq_ok_iff.1 stepped
      cases done
      exact .inr ⟨value, rfl, evaluated_of_atom on list labelled evaluated⟩

theorem evaluated_of_loop (monotone : host.Monotone) (on : ctx.annotate = true) {a : Config}
    {value : Value} {t : Store}
    (ends : Run.loop host fuel ctx visited a.form a.scope a.store = .ok value t)
    (seen : node ∈ visited ∨ Visits host ctx a node) :
    (t.stampsAt node).evaluated = some value := by
  -- The induction is on the steps of the run, which are the tail steps that the visits follow.
  induction fuel generalizing a visited with
  | zero => cases ends
  | succ fuel ih =>
      obtain ⟨form, scope, s⟩ := a
      rw [Run.loop] at ends
      obtain ⟨g, u, resolved, ends⟩ := bind_eq_ok_iff.1 ends
      obtain ⟨step, v, stepped, ends⟩ := bind_eq_ok_iff.1 ends
      have resolves : Resolves host ctx ⟨form, scope, s⟩ ⟨g, scope, u⟩ := ⟨rfl, fuel, resolved⟩
      have entered : form.isList = false → form = g := by
        intro atom
        rw [Evaluator.resolve_of_atom _ _ _ atom] at resolved
        cases resolved
        rfl
      have here : node ∈ Run.visit g (Run.visit form visited) ∨
          (∃ value, step = .done value ∧ (v.stampsAt node).evaluated = some value) ∨
          ∃ c, Steps host ctx ⟨g, scope, u⟩ c ∧ Visits host ctx c node := by
        obtain old | visits := seen
        · exact .inl (mem_visit_iff.2 (.inr (mem_visit_iff.2 (.inr old))))
        cases visits with
        | entered labelled =>
            exact (seen_of_labelled on stepped (.inl ⟨rfl, entered⟩) labelled).imp_right .inl
        | resolved resolves' labelled =>
            obtain rfl := resolves'.unique monotone resolves
            exact (seen_of_labelled on stepped (.inr rfl) labelled).imp_right .inl
        | later resolves' steps visits =>
            obtain rfl := resolves'.unique monotone resolves
            exact .inr (.inr ⟨_, steps, visits⟩)
      simp only [on, if_true] at ends
      cases step with
      | done result =>
          obtain ⟨_, w, stamped, ends⟩ := bind_eq_ok_iff.1 ends
          cases ends
          obtain ⟨_, stamped', stamps⟩ :=
            stampAll_apply on (Run.visit g (Run.visit form visited)) value v
          cases stamped.symm.trans stamped'
          rw [stamps]
          split
          next => rfl
          next unseen =>
            obtain ⟨_, same, evaluated⟩ | ⟨c, ⟨fuel', steps⟩, _⟩ := here.resolve_left unseen
            · cases same
              exact evaluated
            · cases (step_unique monotone stepped steps).1
      | tail next inner =>
          refine ih (a := ⟨next, inner, v⟩) ends ?_
          obtain old | ⟨_, same, _⟩ | ⟨c, ⟨fuel', steps⟩, visits⟩ := here
          · exact .inl old
          · cases same
          · obtain ⟨form', scope', store'⟩ := c
            obtain ⟨same, rfl⟩ := step_unique monotone stepped steps
            cases same
            exact .inr visits

/-- A node that an evaluation passes through is stamped with the value that it comes to. -/
theorem evaluated_of_visits (monotone : host.Monotone) (on : ctx.annotate = true) {a : Config}
    {value : Value} {t : Store} (ends : a.Ends host ctx (.ok value) t)
    (visits : Visits host ctx a node) : (t.stampsAt node).evaluated = some value := by
  obtain ⟨fuel, ends⟩ := ends
  obtain ends | ⟨refused, _⟩ := loop_of_evaluate ends
  · exact evaluated_of_loop monotone on (attempt_eq_value_iff.1 ends) (.inr visits)
  · cases refused

end Runs

end AnnotatedLisp
