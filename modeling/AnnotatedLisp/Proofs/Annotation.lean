import AnnotatedLisp.Proofs.Outcome
import AnnotatedLisp.Proofs.Simulation.Run

/-!
Stamps are a side channel.

Making stamps has no influence on a run: values, errors, scopes, the identities of new nodes and the
text written are those of the same run without stamps, and a run that makes none leaves all stamps as
they are. The two halves are two simulations, one between stores apart from their stamps and one
between a store and itself.
-/

namespace AnnotatedLisp

/-- The store without what is recorded at its nodes. -/
def Store.unstamped (s : Store) : Store :=
  { s with stamps := ∅ }

namespace Store

variable {s t : Store}

theorem scopes_eq_of_unstamped_eq (same : s.unstamped = t.unstamped) : s.scopes = t.scopes := by
  change s.unstamped.scopes = t.unstamped.scopes
  rw [same]

theorem nextNode_eq_of_unstamped_eq (same : s.unstamped = t.unstamped) : s.nextNode = t.nextNode := by
  change s.unstamped.nextNode = t.unstamped.nextNode
  rw [same]

theorem eq_withStamps_of_unstamped_eq (same : s.unstamped = t.unstamped) :
    s = { t with stamps := s.stamps } := by
  cases s
  cases t
  simp only [unstamped, Store.mk.injEq] at same ⊢
  exact ⟨same.1, same.2.1, trivial, same.2.2.2⟩

end Store

/-- A run that makes no stamps leaves those that there were. -/
def Invariant.stampFree (stamps : Std.TreeMap NodeId Stamps) : Invariant where
  holds s := s.stamps = stamps
  contexts a := a.annotate = false
  owns _ := True
  raises _ := True
  raises_unrefused _ := trivial
  countNode kept := kept
  addScope _ kept := kept
  owns_new _ := trivial
  define _ _ _ kept := kept
  nested off := off
  stamp _ _ off on _ := absurd (on.symm.trans off) Bool.noConfusion

theorem Invariant.stampFree_contexts (stamps : Std.TreeMap NodeId Stamps) (ctx : Context) :
    (stampFree stamps).simulation.contexts { ctx with annotate := false }
      { ctx with annotate := false } :=
  ⟨rfl, rfl⟩

namespace Simulation

/-- Two runs of which each may make stamps or not. -/
def stampBlind : Simulation where
  stores s t := s.unstamped = t.unstamped
  contexts a b := a.limit = b.limit ∧ a.depth = b.depth
  owns _ := True
  raises _ := True
  raises_unrefused _ := trivial
  scopes_eq := Store.scopes_eq_of_unstamped_eq
  nextNode_eq := Store.nextNode_eq_of_unstamped_eq
  countNode h := congrArg (fun s : Store => { s with nextNode := s.nextNode + 1 }) h
  addScope outer h := congrArg (fun s : Store => (s.addScope (some outer)).2) h
  owns_new _ := trivial
  define name value _ h := congrArg (fun s : Store => s.define _ name value) h
  nested h := ⟨h.1, congrArg (· + 1) h.2⟩
  records := Records
  records_applied := .applied
  records_expansion := .expansion
  stamp _ _ _ _ _ h := h
  stampLeft _ _ _ _ _ h := h
  stampRight _ _ _ _ _ h := h

theorem stampBlind_annotate (ctx : Context) (a b : Bool) :
    stampBlind.contexts { ctx with annotate := a } { ctx with annotate := b } :=
  ⟨rfl, rfl⟩

theorem stampBlind_hosts_none : stampBlind.Hosts Host.none :=
  hosts_none (fun contexts => contexts) ⟨rfl, rfl⟩ (fun _ => trivial) .evaluated

end Simulation

section

variable {x y : Nat → Eval Value}

/-- What the two simulations say of the outcomes of a computation `x` without stamps and of the same
computation `y` with them. -/
theorem ends_iff_of_follows
    (silent : ∀ fuel stamps,
      (Invariant.stampFree stamps).simulation.Follows Eval.Anything (x fuel) (x fuel))
    (toStamped : ∀ fuel, Simulation.stampBlind.Follows Eval.Anything (x fuel) (y fuel))
    (ofStamped : ∀ fuel, Simulation.stampBlind.Follows Eval.Anything (y fuel) (x fuel))
    (s t : Store) (result : Except Error Value) :
    Eval.Ends x s result t ↔
      t.stamps = s.stamps ∧ ∃ stamps, Eval.Ends y s result { t with stamps := stamps } := by
  constructor
  · rintro ⟨fuel, ends⟩
    obtain ⟨u, again, rfl, kept⟩ := (silent fuel s.stamps).attempt_eq ⟨rfl, rfl⟩ ends
    obtain ⟨v, stamped, same⟩ := (toStamped fuel).attempt_eq (t := s) rfl ends
    refine ⟨kept, v.stamps, fuel, ?_⟩
    rw [stamped, ← Store.eq_withStamps_of_unstamped_eq same.symm]
  · rintro ⟨kept, stamps, fuel, ends⟩
    obtain ⟨u, plain, same⟩ := (ofStamped fuel).attempt_eq (t := s) rfl ends
    obtain ⟨_, again, rfl, kept'⟩ := (silent fuel s.stamps).attempt_eq ⟨rfl, rfl⟩ plain
    refine ⟨fuel, ?_⟩
    have apart : t.unstamped = u.unstamped := same
    rw [plain, Store.eq_withStamps_of_unstamped_eq apart, kept, ← kept']

end

/-- A run without stamps ends as the run with stamps does, in the same store but for the stamps, which
it leaves alone. -/
theorem annotation_transparent (ctx : Context) (form : Value) (scope : ScopeId) (s t : Store)
    (result : Except Error Value) :
    (Evaluates Host.none { ctx with annotate := false } form scope s result t ↔
      t.stamps = s.stamps ∧ ∃ stamps,
        Evaluates Host.none { ctx with annotate := true } form scope s result
          { t with stamps := stamps }) ∧
    (Expands Host.none { ctx with annotate := false } form scope s result t ↔
      t.stamps = s.stamps ∧ ∃ stamps,
        Expands Host.none { ctx with annotate := true } form scope s result
          { t with stamps := stamps }) := by
  constructor
  · refine ends_iff_of_follows
      (fun fuel stamps => ?_) (fun fuel => ?_) (fun fuel => ?_) s t result
    · exact Simulation.follows_evaluate ((Invariant.stampFree stamps).hosts_none rfl fun _ => trivial)
        (Nat.le_refl fuel) (Invariant.stampFree_contexts stamps ctx) trivial form
    · exact Simulation.follows_evaluate Simulation.stampBlind_hosts_none
        (Nat.le_refl fuel) (Simulation.stampBlind_annotate ctx false true) trivial form
    · exact Simulation.follows_evaluate Simulation.stampBlind_hosts_none
        (Nat.le_refl fuel) (Simulation.stampBlind_annotate ctx true false) trivial form
  · refine ends_iff_of_follows
      (fun fuel stamps => ?_) (fun fuel => ?_) (fun fuel => ?_) s t result
    · exact Simulation.follows_macroexpand ((Invariant.stampFree stamps).hosts_none rfl fun _ => trivial)
        (Nat.le_refl fuel) (Invariant.stampFree_contexts stamps ctx) scope form
    · exact Simulation.follows_macroexpand Simulation.stampBlind_hosts_none
        (Nat.le_refl fuel) (Simulation.stampBlind_annotate ctx false true) scope form
    · exact Simulation.follows_macroexpand Simulation.stampBlind_hosts_none
        (Nat.le_refl fuel) (Simulation.stampBlind_annotate ctx true false) scope form

end AnnotatedLisp
