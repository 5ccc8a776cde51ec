import AnnotatedLisp.Proofs.Annotation
import AnnotatedLisp.Proofs.Fuel

/-!
Operations of the host that only do what a program could do.

Such an operation makes nodes, scopes and definitions, evaluates forms and writes text. It neither looks at
stamps nor makes any of its own, and does not tell amounts of fuel apart. Said for all simulations at once:
whatever relation between stores the evaluations it asks for respect, it respects.
-/

namespace AnnotatedLisp

open Eval

/-- A simulation that leaves the host free to make definitions anywhere and to write text. -/
structure Simulation.Lax (S : Simulation) : Prop where
  owns : ∀ scope : ScopeId, S.owns scope
  say : ∀ {s t : Store} (text : String), S.stores s t →
    S.stores { s with output := s.output ++ text } { t with output := t.output ++ text }

/-- The operations of the host respect what the evaluations that they ask for respect. -/
def Host.Regular (host : Host) : Prop :=
  ∀ S : Simulation, S.Lax → ∀ {e e' : Value → ScopeId → Eval Value},
    (∀ (form : Value) (scope : ScopeId), S.Follows Anything (e form scope) (e' form scope)) →
    ∀ (name : String) (scope : ScopeId) (args : List Value),
      S.Follows Anything (host.call e name scope args) (host.call e' name scope args)

theorem Host.none_regular : Host.none.Regular :=
  fun S _ _ _ _ _ _ _ => follows_raise (S.raises_unrefused rfl)

namespace Simulation

variable {S : Simulation}

theorem follows_say (lax : S.Lax) (text : String) :
    S.Follows Anything (Eval.say text) (Eval.say text) :=
  fun _ _ related => .ok trivial (lax.say text related)

theorem hosts_of_regular {host : Host} (regular : host.Regular) (lax : S.Lax)
    (levels : ∀ {a b : Context}, S.contexts a b → a.limit = b.limit ∧ a.depth = b.depth)
    (top : S.contexts (.top false) (.top false))
    (refuses : ∀ limit : Nat, S.raises (.depthExceeded limit)) (values : S.RecordsValues) :
    S.Hosts host where
  levels := levels
  top := top
  refuses := refuses
  values := values
  call follows := regular S lax fun form scope => follows form (lax.owns scope)

end Simulation

theorem Session.host_regular : Session.host.Regular := by
  intro S lax e e' _ name _ args
  change S.Follows Anything (if name = "help" then Session.help.call args else raise (.unboundSymbol name))
    (if name = "help" then Session.help.call args else raise (.unboundSymbol name))
  split
  · refine (Simulation.follows_unrefused (unrefused_arity _ args.length)).bind fun _ _ => ?_
    refine (Simulation.follows_unrefused (unrefused_convert _ args)).bind fun _ _ => ?_
    exact (Simulation.follows_say lax _).bind fun _ _ => follows_pure trivial
  · exact follows_raise (S.raises_unrefused rfl)

/-- More fuel is one of the differences that a regular host does not see. -/
theorem Host.Regular.monotone {host : Host} (regular : host.Regular) : host.Monotone :=
  fun _ _ refines name scope args =>
    follows_iff_refines.1 <|
      regular Invariant.free.simulation ⟨fun _ => trivial, fun _ related => ⟨related.1 ▸ rfl, trivial⟩⟩
        (fun form scope => follows_iff_refines.2 (refines form scope)) name scope args

end AnnotatedLisp
