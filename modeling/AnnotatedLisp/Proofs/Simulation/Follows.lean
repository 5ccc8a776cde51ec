import AnnotatedLisp.Proofs.Computation

/-!
Computations that follow one another from related stores.

Fuel is the one difference between two runs that a program cannot see, so a computation that was
granted more of it may go on where the other has stopped for want of it. Everything else has to agree:
the result, the error, and the relation between the stores. The rules here cover the ways in which the
evaluator puts computations together; they say nothing yet about what the evaluator does.
-/

namespace AnnotatedLisp
namespace Eval

variable {α β : Type} {stores : Store → Store → Prop} {raises : Error → Prop} {fits : α → Prop}
  {suits : β → Prop}

/-- Outcomes that agree, the second being free where the first ran out of fuel. -/
inductive Agree (stores : Store → Store → Prop) (raises : Error → Prop) (fits : α → Prop) :
    EStateM.Result Stop Store α → EStateM.Result Stop Store α → Prop
  | ok {a : α} {s t : Store} (fit : fits a) (related : stores s t) :
      Agree stores raises fits (.ok a s) (.ok a t)
  | error {e : Error} {s t : Store} (raised : raises e) (related : stores s t) :
      Agree stores raises fits (.error (.error e) s) (.error (.error e) t)
  | exhausted {s : Store} {outcome : EStateM.Result Stop Store α} :
      Agree stores raises fits (.error .exhausted s) outcome

/-- From related stores the second computation ends as the first does, with a result that `fits` or an
error that it `raises`. -/
def Follows (stores : Store → Store → Prop) (raises : Error → Prop) (fits : α → Prop)
    (x y : Eval α) : Prop :=
  ∀ ⦃s t : Store⦄, stores s t → Agree stores raises fits (x s) (y t)

/-- No demand on a result. -/
abbrev Anything (_ : α) : Prop := True

theorem follows_pure {a : α} (fit : fits a) : Follows stores raises fits (pure a) (pure a) :=
  fun _ _ related => .ok fit related

theorem follows_raise {error : Error} (raised : raises error) :
    Follows stores raises fits (raise error : Eval α) (raise error) :=
  fun _ _ related => .error raised related

theorem follows_exhausted (y : Eval α) : Follows stores raises fits exhausted y :=
  fun _ _ _ => .exhausted

theorem follows_ofExcept {result : Except Error α} (fit : ∀ a, result = .ok a → fits a)
    (raised : ∀ e, result = .error e → raises e) :
    Follows stores raises fits (ofExcept result) (ofExcept result) := by
  cases result with
  | ok a => exact follows_pure (fit a rfl)
  | error e => exact follows_raise (raised e rfl)

theorem Follows.mono {fits' : α → Prop} {x y : Eval α} (h : Follows stores raises fits x y)
    (weaker : ∀ a, fits a → fits' a) : Follows stores raises fits' x y := by
  intro s t related
  have outcomes := h related
  generalize x s = r at outcomes ⊢
  generalize y t = r' at outcomes ⊢
  cases outcomes with
  | ok fit related => exact .ok (weaker _ fit) related
  | error raised related => exact .error raised related
  | exhausted => exact .exhausted

theorem Follows.bind {x y : Eval α} {f g : α → Eval β} (first : Follows stores raises fits x y)
    (rest : ∀ a, fits a → Follows stores raises suits (f a) (g a)) :
    Follows stores raises suits (x >>= f) (y >>= g) := by
  intro s t related
  have outcomes := first related
  generalize ends : x s = r at outcomes
  generalize ends' : y t = r' at outcomes
  cases outcomes with
  | ok fit related =>
      rw [bind_of_ok ends, bind_of_ok ends']
      exact rest _ fit related
  | error raised related =>
      rw [bind_of_error ends, bind_of_error ends']
      exact .error raised related
  | exhausted =>
      rw [bind_of_error ends]
      exact .exhausted

theorem Follows.attempt {x y : Eval α} (h : Follows stores raises fits x y) :
    Follows stores raises (fun result => ∀ e, result = .error e → raises e) x.attempt
      y.attempt := by
  intro s t related
  have outcomes := h related
  generalize ends : x s = r at outcomes
  generalize ends' : y t = r' at outcomes
  cases outcomes with
  | ok fit related =>
      rw [attempt_of_ok ends, attempt_of_ok ends']
      exact .ok (fun _ other => by cases other) related
  | error raised related =>
      rw [attempt_of_error ends, attempt_of_error ends']
      exact .ok (fun _ same => by cases same; exact raised) related
  | exhausted =>
      rw [Eval.attempt, ends]
      exact .exhausted

theorem follows_mapM {ι : Type} {f g : ι → Eval α}
    (each : ∀ i, Follows stores raises Anything (f i) (g i)) (items : List ι) :
    Follows stores raises Anything (items.mapM f) (items.mapM g) := by
  induction items with
  | nil => simpa only [List.mapM_nil] using follows_pure trivial
  | cons item items ih =>
      simp only [List.mapM_cons]
      exact (each item).bind fun _ _ => ih.bind fun _ _ => follows_pure trivial

theorem follows_forM {ι : Type} {f g : ι → Eval Unit}
    (each : ∀ i, Follows stores raises Anything (f i) (g i)) (items : List ι) :
    Follows stores raises Anything (items.forM f) (items.forM g) := by
  induction items with
  | nil => exact follows_pure trivial
  | cons item items ih => exact (each item).bind fun _ _ => ih

/-- An outcome that is no want of fuel is found again, from a related store. -/
theorem Follows.attempt_eq {x y : Eval α} (h : Follows stores raises fits x y) {s t u : Store}
    {result : Except Error α} (related : stores s t) (ends : x.attempt s = .ok result u) :
    ∃ v, y.attempt t = .ok result v ∧ stores u v := by
  have outcomes := h.attempt related
  rw [ends] at outcomes
  generalize y.attempt t = r at outcomes ⊢
  cases outcomes with
  | ok _ related => exact ⟨_, rfl, related⟩

end Eval
end AnnotatedLisp
