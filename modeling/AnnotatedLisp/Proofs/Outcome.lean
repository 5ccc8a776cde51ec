import AnnotatedLisp.Eval.Run

/-!
Outcomes of evaluation and of macro expansion, whatever amount of fuel they take.

An outcome is a value or an error, with the store that it leaves behind. A run that never ends has
none.
-/

namespace AnnotatedLisp

/-- Granted enough fuel, the computation ends in the result and leaves the store `t`. -/
def Eval.Ends {α : Type} (x : Nat → Eval α) (s : Store) (result : Except Error α) (t : Store) : Prop :=
  ∃ fuel, (x fuel).attempt s = .ok result t

/-- Evaluating the form ends in the result and leaves the store `t`. -/
def Evaluates (host : Host) (ctx : Context) (form : Value) (scope : ScopeId) :
    Store → Except Error Value → Store → Prop :=
  Eval.Ends fun fuel => evaluate host fuel ctx form scope

/-- Expanding the form ends in the result and leaves the store `t`. -/
def Expands (host : Host) (ctx : Context) (form : Value) (scope : ScopeId) :
    Store → Except Error Value → Store → Prop :=
  Eval.Ends fun fuel => macroexpand host fuel ctx form scope

end AnnotatedLisp
