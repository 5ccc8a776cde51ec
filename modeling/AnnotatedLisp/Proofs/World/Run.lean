import AnnotatedLisp.Proofs.World.Native
import AnnotatedLisp.Proofs.World.Step
import AnnotatedLisp.Session.Turn

/-!
Whole runs lead from world to world.

Operations of the host are other people's code. What is asked of them is that they make values and scopes only
by way of the store, and know no others than those that they were written with and those that they are given.
-/

namespace AnnotatedLisp

open Eval

/-- The operations of the host lead from world to world as far as the evaluations do that they ask for,
wherever `kept`, with which they were written, is known and so many scopes exist. -/
def Host.Sound (host : Host) (kept : List Value) (scopes : Nat) : Prop :=
  ∀ {w : World} {e : Value → ScopeId → Eval Value}, w.KnowsAll kept → scopes ≤ w.scopes →
    (∀ {v : World} {form : Value} {scope : ScopeId}, w.Precedes v → v.Knows form → v.HasScope scope →
      v.Sustains World.Knows (e form scope)) →
    ∀ (name : String) {scope : ScopeId} {args : List Value}, w.HasScope scope → w.KnowsAll args →
      w.Sustains World.Knows (host.call e name scope args)

theorem Host.none_sound (kept : List Value) (scopes : Nat) : Host.none.Sound kept scopes :=
  fun _ _ _ _ _ _ _ _ => World.sustains_raise trivial

namespace World

variable {w : World}

theorem sustains_say (text : String) : w.Sustains Anything (say text) :=
  fun _ describes => .ok (.refl w) { describes with } trivial

section Loop

variable {host : Host} {kept : List Value} {scopes : Nat}
  {loop : Context → List NodeId → Value → ScopeId → Eval Value}

/-- The values that were written into the host are known, and its scopes exist. -/
structure Holds (w : World) (kept : List Value) (scopes : Nat) : Prop where
  values : w.KnowsAll kept
  scopes : scopes ≤ w.scopes

theorem Holds.mono {v : World} (later : w.Precedes v) (holds : w.Holds kept scopes) :
    v.Holds kept scopes :=
  ⟨KnowsAll.mono later holds.values, Nat.le_trans holds.scopes later.scopes⟩

/-- Evaluation by a loop, nowhere stamped yet, leads on from the world and from all later ones. -/
def Loops (w : World) (loop : Context → List NodeId → Value → ScopeId → Eval Value) : Prop :=
  ∀ {v : World}, w.Precedes v → ∀ (ctx : Context) {form : Value} {scope : ScopeId},
    v.Knows form → v.HasScope scope → v.Sustains Knows (loop ctx [] form scope)

theorem Loops.mono {v : World} (later : w.Precedes v) (loops : w.Loops loop) : v.Loops loop :=
  fun last => loops (later.trans last)

theorem sustains_stampAll (ctx : Context) (visited : List NodeId) {value : Value}
    (known : w.Knows value) : w.Sustains Anything (Run.stampAll ctx visited value) :=
  sustains_forM fun node _ _ later => sustains_evaluated ctx node (known.mono later)

theorem sustains_enterWith (loops : w.Loops loop) (ctx : Context) {form : Value} {scope : ScopeId}
    (known : w.Knows form) (present : w.HasScope scope) :
    w.Sustains Knows (Run.enterWith loop ctx form scope) := by
  rw [Run.enterWith, onFreshStack_eq]
  split
  · exact sustains_raise trivial
  · split <;> exact loops (.refl w) ctx known present

theorem sustains_applyWith (sound : host.Sound kept scopes) (holds : w.Holds kept scopes)
    (loops : w.Loops loop) {operation : Native} {args : List Value} (known : w.Knows (.native operation))
    (knownArgs : w.KnowsAll args) : w.Sustains Knows (Run.applyWith host loop operation args) := by
  cases operation with
  | core op => exact sustains_core op knownArgs
  | host name scope =>
      have present : w.HasScope scope := (knows_iff.1 known).1.scope scope rfl
      refine sound holds.values holds.scopes (fun later known present => ?_) name present knownArgs
      rw [onFreshStack_eq]
      exact sustains_enterWith (loops.mono later) (.top false) known present

theorem evaluators_evaluator (sound : host.Sound kept scopes) (holds : w.Holds kept scopes)
    (loops : w.Loops loop) (fuel : Nat) : w.Evaluators (Run.evaluator host fuel loop) where
  enter later ctx _ _ known present := sustains_enterWith (loops.mono later) ctx known present
  expand later ctx _ _ known present :=
    sustains_expansion (fun last => sustains_enterWith (loops.mono (later.trans last))) ctx fuel present
      known
  apply later _ _ known knownArgs :=
    sustains_applyWith sound (holds.mono later) (loops.mono later) known knownArgs

end Loop

section Runs

variable {host : Host} {kept : List Value} {scopes : Nat} {form : Value} {scope : ScopeId}

theorem sustains_loop (sound : host.Sound kept scopes) (holds : w.Holds kept scopes) (fuel : Nat)
    (ctx : Context) (visited : List NodeId) (known : w.Knows form) (present : w.HasScope scope) :
    w.Sustains Knows (Run.loop host fuel ctx visited form scope) := by
  -- Less fuel is left to the nested evaluations and to the rest of the steps alike.
  induction fuel generalizing w ctx visited form scope with
  | zero => exact sustains_exhausted
  | succ fuel ih =>
      have loops : w.Loops (Run.loop host fuel) := fun later ctx _ _ known present =>
        ih (holds.mono later) ctx [] known present
      have evs := evaluators_evaluator sound holds loops fuel
      rw [Run.loop]
      refine (sustains_resolve evs ctx present known).bind fun expanded later made => ?_
      refine (sustains_step (evs.mono later) ctx (HasScope.mono later present) made).bind
        fun step later' fit => ?_
      cases step with
      | done value =>
          exact (sustains_stampAll ctx _ fit).bind fun _ last _ => sustains_pure (fit.mono last)
      | tail next inner => exact ih (holds.mono (later.trans later')) ctx _ fit.1 fit.2

variable (sound : host.Sound kept scopes) (holds : w.Holds kept scopes)

include sound holds

theorem loops_loop (fuel : Nat) : w.Loops (Run.loop host fuel) :=
  fun later ctx _ _ known present => sustains_loop sound (holds.mono later) fuel ctx [] known present

/-- Evaluation leads from world to world, whether it ends in a value or in an error. -/
theorem sustains_evaluate (fuel : Nat) (ctx : Context) (known : w.Knows form)
    (present : w.HasScope scope) : w.Sustains Knows (evaluate host fuel ctx form scope) :=
  sustains_enterWith (loops_loop sound holds fuel) ctx known present

theorem sustains_macroexpand (fuel : Nat) (ctx : Context) (known : w.Knows form)
    (present : w.HasScope scope) : w.Sustains Knows (macroexpand host fuel ctx form scope) :=
  sustains_expansion (fun later => sustains_enterWith (Loops.mono later (loops_loop sound holds fuel)))
    ctx fuel present known

theorem sustains_applyNative (fuel : Nat) {operation : Native} {args : List Value}
    (known : w.Knows (.native operation)) (knownArgs : w.KnowsAll args) :
    w.Sustains Knows (applyNative host fuel operation args) :=
  sustains_applyWith sound holds (loops_loop sound holds fuel) known knownArgs

end Runs

end World

theorem Session.host_sound (kept : List Value) (scopes : Nat) : Session.host.Sound kept scopes := by
  intro w e _ _ _ name scope args _ known
  change w.Sustains World.Knows
    (if name = "help" then Session.help.call args else raise (.unboundSymbol name))
  split
  · exact World.sustains_operation (fun _ _ => (World.sustains_say helpText).bind
      fun _ _ _ => World.sustains_pure World.knows_nil) known
  · exact World.sustains_raise trivial

end AnnotatedLisp
