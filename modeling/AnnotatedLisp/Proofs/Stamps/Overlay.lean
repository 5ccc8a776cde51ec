import AnnotatedLisp.Proofs.Simulation.Host
import AnnotatedLisp.Proofs.Stamps.Visits

/-!
Stamps of earlier runs show through.

A run takes no stamp away before it makes its own. What it leaves at a node is what it would have left had
the node been cleared first, over what was there: the value is always its own, while the operation and the
expansion are those of an earlier run where it has none itself.
-/

namespace AnnotatedLisp

open Eval

/-- The store without what is recorded at one node. -/
def Store.cleared (s : Store) (node : NodeId) : Store :=
  s.stamp node fun _ => .none

/-- What is recorded at one node and nothing of what is recorded at others. -/
def Store.stampsOnlyAt (s : Store) (node other : NodeId) : Stamps :=
  if node = other then s.stampsAt other else .none

/-- Two runs with the same stamps, where the first has others under them. -/
def Simulation.overlaying (under : NodeId → Stamps) : Simulation where
  stores s t := s.unstamped = t.unstamped ∧
    ∀ node, s.stampsAt node = (t.stampsAt node).atop (under node)
  contexts a b := a = b
  owns _ := True
  raises _ := True
  raises_unrefused _ := trivial
  scopes_eq related := Store.scopes_eq_of_unstamped_eq related.1
  nextNode_eq related := Store.nextNode_eq_of_unstamped_eq related.1
  countNode related :=
    ⟨congrArg (fun s : Store => { s with nextNode := s.nextNode + 1 }) related.1, related.2⟩
  addScope outer related :=
    ⟨congrArg (fun s : Store => (s.addScope (some outer)).2) related.1, related.2⟩
  owns_new _ := trivial
  define name value _ related :=
    ⟨congrArg (fun s : Store => s.define _ name value) related.1, related.2⟩
  nested := @Context.nested_eq
  records := Records
  records_applied := .applied
  records_expansion := .expansion
  stamp := by
    rintro a _ s t change node records rfl _ _ ⟨same, stamps⟩
    refine ⟨same, fun other => ?_⟩
    rw [Store.stampsAt_stamp, Store.stampsAt_stamp, stamps]
    split
    · exact records.change_atop _ _
    · rfl
  stampLeft := by
    rintro a _ s t change _ _ rfl on off _
    exact absurd (on.symm.trans off) Bool.noConfusion
  stampRight := by
    rintro a _ s t change _ _ rfl off on _
    exact absurd (on.symm.trans off) Bool.noConfusion

theorem Simulation.overlaying_lax (under : NodeId → Stamps) : (overlaying under).Lax where
  owns _ := trivial
  say text related :=
    ⟨congrArg (fun s : Store => { s with output := s.output ++ text }) related.1, related.2⟩

theorem Store.overlaying_cleared (s : Store) (node : NodeId) :
    (Simulation.overlaying (s.stampsOnlyAt node)).stores s (s.cleared node) := by
  refine ⟨rfl, fun other => ?_⟩
  rw [cleared, Store.stampsAt_stamp, stampsOnlyAt]
  split
  · rw [Stamps.none_atop]
  · rw [Stamps.atop_none]

/-- From a store in which the node was cleared, the run has the same outcome. It leaves the same stamps at
all other nodes, and at the node those that it makes; the value is one of them. Without clearing it first,
what it does not make anew stays what it was. -/
theorem stamps_atop_earlier (host : Host) (regular : host.Regular) (ctx : Context)
    (on : ctx.annotate = true) (form : Value) (node : NodeId) (labelled : form.nodeLabel? = some node)
    (scope : ScopeId) (s t : Store) (value : Value)
    (ends : Evaluates host ctx form scope s (.ok value) t) :
    ∃ fresh, Evaluates host ctx form scope (s.cleared node) (.ok value) fresh ∧
      t.unstamped = fresh.unstamped ∧
      (∀ other, other ≠ node → t.stampsAt other = fresh.stampsAt other) ∧
      (fresh.stampsAt node).evaluated = some value ∧
      t.stampsAt node = (fresh.stampsAt node).atop (s.stampsAt node) := by
  obtain ⟨fuel, ends⟩ := ends
  have hosts := Simulation.hosts_of_regular regular (Simulation.overlaying_lax (s.stampsOnlyAt node))
    (fun contexts => contexts ▸ ⟨rfl, rfl⟩) rfl (fun _ => trivial) .evaluated
  have follows : (Simulation.overlaying (s.stampsOnlyAt node)).Follows Anything
      (evaluate host fuel ctx form scope) (evaluate host fuel ctx form scope) :=
    Simulation.follows_evaluate hosts (Nat.le_refl fuel) rfl trivial form
  obtain ⟨fresh, again, same, stamps⟩ := follows.attempt_eq (s.overlaying_cleared node) ends
  have again : Config.Ends host ctx ⟨form, scope, s.cleared node⟩ (.ok value) fresh := ⟨fuel, again⟩
  refine ⟨fresh, again, same, fun other away => ?_, ?_, ?_⟩
  · rw [stamps, Store.stampsOnlyAt, if_neg (Ne.symm away), Stamps.atop_none]
  · exact evaluated_of_visits regular.monotone on again (.entered labelled)
  · rw [stamps, Store.stampsOnlyAt, if_pos rfl]

/-- `(f true)` where `f` is a function: an operation that was recorded before is replaced, an expansion
shows through. -/
theorem stamps_atop_earlier_of_call :
    let identity : Value := .fn 0 (.seq 1 .vector [.symbol "x"]) (.symbol "x") 0 false
    let form : Value := .seq 2 .list [.symbol "f", .bool true]
    let s : Store := ((Store.mk #[⟨[], none⟩] 3 ∅ "").define 0 "f" identity).stamp 2
      fun _ => ⟨none, some .nil, some (.bool false)⟩
    Host.none.Regular ∧ ∃ t, Evaluates Host.none (.top true) form 0 s (.ok (.bool true)) t ∧
      ∃ fresh, Evaluates Host.none (.top true) form 0 (s.cleared 2) (.ok (.bool true)) fresh ∧
        t.unstamped = fresh.unstamped ∧
        (∀ other, other ≠ 2 → t.stampsAt other = fresh.stampsAt other) ∧
        (fresh.stampsAt 2).evaluated = some (.bool true) ∧
        t.stampsAt 2 = (fresh.stampsAt 2).atop (s.stampsAt 2) := by
  intro identity form s
  have ends : ∃ t, Evaluates Host.none (.top true) form 0 s (.ok (.bool true)) t := ⟨_, 3, rfl⟩
  obtain ⟨t, ends⟩ := ends
  exact ⟨Host.none_regular, t, ends, stamps_atop_earlier Host.none Host.none_regular (.top true) rfl
    form 2 rfl 0 s t (.bool true) ends⟩

/-- `(m true)` is evaluated twice, first with a macro `m`, then with a function. The expansion of the first
time stays, though the second run does not expand anything. -/
theorem expansion_of_earlier_run :
    let identity (isMacro : Bool) : Value :=
      .fn 0 (.seq 1 .vector [.symbol "x"]) (.symbol "x") 0 isMacro
    let form : Value := .seq 2 .list [.symbol "m", .bool true]
    let s : Store := (Store.mk #[⟨[], none⟩] 3 ∅ "").define 0 "m" (identity true)
    ∃ t u fresh, Evaluates Host.none (.top true) form 0 s (.ok (.bool true)) t ∧
      Evaluates Host.none (.top true) form 0 (t.define 0 "m" (identity false)) (.ok (.bool true)) u ∧
      Evaluates Host.none (.top true) form 0 ((t.define 0 "m" (identity false)).cleared 2)
        (.ok (.bool true)) fresh ∧
      (u.stampsAt 2).expansion = some (.bool true) ∧ (fresh.stampsAt 2).expansion = none :=
  ⟨_, _, _, ⟨4, rfl⟩, ⟨4, rfl⟩, ⟨4, rfl⟩, rfl, rfl⟩

end AnnotatedLisp
