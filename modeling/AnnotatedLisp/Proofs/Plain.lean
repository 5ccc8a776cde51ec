import AnnotatedLisp.Proofs.Limit.Requests

/-!
Forms that are no macro calls.

A list that is no macro call is its own expansion. What its head is bound to is recorded all the same, if
stamps are made and if it is bound to anything, before the step of the list is taken.

Expansion ends at such a form. The body of a macro may define and hide macros, so this is a fact on the store
that the expansion leaves, not on the one that it starts from; in that store nothing is left to expand.
-/

namespace AnnotatedLisp

open Eval

/-- The store in which something was recorded at a form. -/
def Context.stamped (ctx : Context) (form : Value) (change : Stamps → Stamps) (s : Store) : Store :=
  match form.nodeLabel? with
  | some node => if ctx.annotate then s.stamp node change else s
  | none => s

/-- The store in which the step of a form is taken that is no macro call. -/
def Store.noted (s : Store) (ctx : Context) (scope : ScopeId) (form : Value) : Store :=
  match (Expansion.callHead? form).bind fun name => s.lookup name scope with
  | some binding => ctx.stamped form (fun stamps => { stamps with applied := some binding }) s
  | none => s

variable {host : Host} {ctx : Context} {scope : ScopeId} {s : Store} {fuel : Nat}

theorem stampForm_apply (form : Value) (change : Stamps → Stamps) (s : Store) :
    ctx.stampForm form change s = .ok () (ctx.stamped form change s) := by
  rw [Context.stampForm, Context.stamped]
  cases form.nodeLabel? with
  | none => rfl
  | some node =>
      dsimp only
      rw [Context.stamp]
      cases ctx.annotate <;> rfl

theorem stamped_of_off (off : ctx.annotate = false) (form : Value) (change : Stamps → Stamps) :
    ctx.stamped form change s = s := by
  rw [Context.stamped, off]
  cases form.nodeLabel? <;> rfl

theorem noted_of_off (off : ctx.annotate = false) (form : Value) : s.noted ctx scope form = s := by
  rw [Store.noted]
  split
  · exact stamped_of_off off form _
  · rfl

theorem noted_of_unbound {form : Value} {name : String} (named : Expansion.callHead? form = some name)
    (unbound : s.lookup name scope = none) : s.noted ctx scope form = s := by
  rw [Store.noted, named, Option.bind_some, unbound]

theorem unstamped_noted (form : Value) : (s.noted ctx scope form).unstamped = s.unstamped := by
  rw [Store.noted]
  split
  · rw [Context.stamped]
    split
    · split <;> rfl
    · rfl
  · rfl

/-- Records have no part in whether a form is a macro call. -/
theorem calledMacro?_noted (form g : Value) :
    (s.noted ctx scope form).calledMacro? scope g = s.calledMacro? scope g := by
  have scopes : (s.noted ctx scope form).scopes = s.scopes :=
    Store.scopes_eq_of_unstamped_eq (unstamped_noted form)
  simp only [Store.calledMacro?, Store.lookup_congr scopes]

section Expansion

variable {enter : Context → Value → ScopeId → Eval Value} {form : Value}

/-- One round of expansion, with stamps or without. -/
theorem expansion_succ (form : Value) (s : Store) :
    Expansion.run enter ctx scope (fuel + 1) form s =
      match s.calledMacro? scope form with
      | none => .ok form (s.noted ctx scope form)
      | some (params, body, outer) =>
        (do let inner ← Params.newScope outer params (Expansion.callArgs form)
            let expanded ← enter ctx.nested body inner
            Expansion.run enter ctx scope fuel expanded) (s.noted ctx scope form) := by
  rw [Expansion.run.eq_def, Store.noted, Store.calledMacro?]
  dsimp only
  cases Expansion.callHead? form with
  | none => rfl
  | some name =>
      dsimp only
      rw [bind_of_ok (lookup?_apply scope name s), Option.bind_some]
      cases s.lookup name scope with
      | none => rfl
      | some binding =>
          dsimp only
          rw [bind_of_ok (stampForm_apply form _ s)]
          cases binding with
          | fn label params body outer isMacro => cases isMacro <;> rfl
          | _ => rfl

/-- A form that is no macro call is what it expands into. -/
theorem expansion_of_plain (plain : s.calledMacro? scope form = none) :
    Expansion.run enter ctx scope (fuel + 1) form s = .ok form (s.noted ctx scope form) := by
  rw [expansion_succ, plain]

/-- The form that expansion ends at is no macro call in the store that it leaves, stamps or not. The induction
is on the rounds: what comes of a macro call is the form of another round. -/
theorem calledMacro?_of_expansion {g : Value} {t : Store}
    (ends : Expansion.run enter ctx scope fuel form s = .ok g t) : t.calledMacro? scope g = none := by
  induction fuel generalizing form s with
  | zero => cases ends
  | succ fuel ih =>
      rw [expansion_succ] at ends
      cases called : s.calledMacro? scope form with
      | none =>
          simp only [called] at ends
          cases ends
          rw [calledMacro?_noted, called]
      | some parts =>
          obtain ⟨params, body, outer⟩ := parts
          simp only [called] at ends
          obtain ⟨inner, u, _, ends⟩ := bind_eq_ok_iff.1 ends
          obtain ⟨expanded, v, _, ends⟩ := bind_eq_ok_iff.1 ends
          exact ih ends

end Expansion

/-- Of a form that is no macro call nothing is made but the record of its head. -/
theorem resolve_of_plain {form : Value} (plain : s.calledMacro? scope form = none) :
    (Run.evaluatorAt host (fuel + 1)).resolve ctx scope form s =
      .ok form (s.noted ctx scope form) := by
  cases form with
  | seq node kind items =>
      cases kind with
      | list =>
          refine (bind_of_ok (expansion_of_plain plain)).trans ?_
          rw [if_neg (by simp [Value.isSameNode])]
          rfl
      | vector => rfl
  | _ => rfl

theorem resolves_iff_of_plain {a b : Config} (plain : a.store.calledMacro? a.scope a.form = none) :
    Resolves host ctx a b ↔ b = ⟨a.form, a.scope, a.store.noted ctx a.scope a.form⟩ := by
  constructor
  · obtain ⟨form, scope, s⟩ := a
    obtain ⟨g, scope', t⟩ := b
    rintro ⟨rfl, fuel, resolved⟩
    cases fuel with
    | zero =>
        -- Without fuel only what is no list is resolved.
        cases form with
        | seq node kind items =>
            cases kind <;> cases resolved
            rfl
        | _ =>
            cases resolved
            rfl
    | succ fuel =>
        dsimp only at plain resolved
        rw [resolve_of_plain plain] at resolved
        cases resolved
        rfl
  · rintro rfl
    exact ⟨rfl, 1, resolve_of_plain plain⟩

/-- The form is a list headed by a symbol that is bound to a macro. -/
def Store.IsMacroCall (s : Store) (scope : ScopeId) (form : Value) : Prop :=
  ∃ node name args label params body outer,
    form = .seq node .list (.symbol name :: args) ∧
      s.lookup name scope = some (.fn label params body outer true)

theorem exists_of_callHead? {form : Value} {name : String} (named : Expansion.callHead? form = some name) :
    ∃ node args, form = .seq node .list (.symbol name :: args) := by
  unfold Expansion.callHead? at named
  split at named <;> cases named
  exact ⟨_, _, rfl⟩

theorem calledMacro?_eq_none_iff {form : Value} :
    s.calledMacro? scope form = none ↔ ¬ s.IsMacroCall scope form := by
  constructor
  · rintro plain ⟨node, name, args, label, params, body, outer, rfl, bound⟩
    simp [Store.calledMacro?, Expansion.callHead?, bound] at plain
  · intro plain
    unfold Store.calledMacro?
    split
    · rfl
    next name named =>
      split
      next label params body outer bound =>
        obtain ⟨node, args, rfl⟩ := exists_of_callHead? named
        exact absurd ⟨node, name, args, label, params, body, outer, rfl, bound⟩ plain
      · rfl

/-- Expanding the form gives the form itself and changes nothing but stamps. Nothing is evaluated for it: it
is the same whatever evaluating a form may do. -/
structure Settled (host : Host) (ctx : Context) (scope : ScopeId) (s : Store) (form : Value) : Prop where
  expands_iff : ∀ result t, Expands host ctx form scope s result t ↔
    result = .ok form ∧ t = s.noted ctx scope form
  evaluates_nothing : ∀ (enter : Context → Value → ScopeId → Eval Value) (fuel : Nat),
    Expansion.run enter ctx scope (fuel + 1) form s = .ok form (s.noted ctx scope form)
  unstamped : (s.noted ctx scope form).unstamped = s.unstamped

theorem settled_of_plain {form : Value} (plain : ¬ s.IsMacroCall scope form) :
    Settled host ctx scope s form where
  expands_iff result t := by
    have once (fuel : Nat) : (macroexpand host (fuel + 1) ctx form scope).attempt s =
        .ok (.ok form) (s.noted ctx scope form) :=
      attempt_of_ok (expansion_of_plain (calledMacro?_eq_none_iff.2 plain))
    constructor
    · rintro ⟨fuel, ends⟩
      cases fuel with
      | zero => cases ends
      | succ fuel =>
          cases (once fuel).symm.trans ends
          exact ⟨rfl, rfl⟩
    · rintro ⟨rfl, rfl⟩
      exact ⟨1, once 0⟩
  evaluates_nothing _ _ := expansion_of_plain (calledMacro?_eq_none_iff.2 plain)
  unstamped := unstamped_noted form

/-- Expansion ends at a fixed point, whatever the bodies of macros do on the way: in the store that it leaves,
the form that it returns is no macro call, and expanding it once more gives it back. So does expanding a form
that is no macro call in the first place. -/
theorem expansion_settles (host : Host) (ctx : Context) (form : Value) (scope : ScopeId) (s : Store) :
    (∀ g t, Expands host ctx form scope s (.ok g) t →
      ¬ t.IsMacroCall scope g ∧ ∀ ctx', Settled host ctx' scope t g) ∧
    (¬ s.IsMacroCall scope form → Settled host ctx scope s form) := by
  refine ⟨fun g t expands => ?_, settled_of_plain⟩
  obtain ⟨fuel, ends⟩ := expands
  have plain : ¬ t.IsMacroCall scope g :=
    calledMacro?_eq_none_iff.1 (calledMacro?_of_expansion (attempt_eq_value_iff.1 ends))
  exact ⟨plain, fun _ => settled_of_plain plain⟩

/-- With a macro `m` that returns its argument, `(m (m (list y)))` is expanded twice. It ends at `(list y)`,
which calls no macro, and expanding this again records at most that `list` was called. -/
theorem expansion_settles_of_nested_calls :
    let identity : Value := .fn 0 (.seq 1 .vector [.symbol "x"]) (.symbol "x") 0 true
    let g : Value := .seq 2 .list [.symbol "list", .symbol "y"]
    let form : Value := .seq 4 .list [.symbol "m", .seq 3 .list [.symbol "m", g]]
    let s : Store := ⟨#[⟨[("list", .native (.core .list)), ("m", identity)], none⟩], 5, ∅, ""⟩
    ∃ t, Expands Host.none (.top true) form 0 s (.ok g) t ∧ ¬ t.IsMacroCall 0 g ∧
      Expands Host.none (.top true) g 0 t (.ok g) (t.noted (.top true) 0 g) ∧
      ¬ s.IsMacroCall 0 g ∧ Expands Host.none (.top false) g 0 s (.ok g) s := by
  intro identity g form s
  have expands : Expands Host.none (.top true) form 0 s (.ok g) _ := ⟨4, rfl⟩
  have ends := (expansion_settles Host.none (.top true) form 0 s).1 g _ expands
  have plain : ¬ s.IsMacroCall 0 g := calledMacro?_eq_none_iff.1 rfl
  have stays := (expansion_settles Host.none (.top false) g 0 s).2 plain
  exact ⟨_, expands, ends.1, ((ends.2 _).expands_iff _ _).2 ⟨rfl, rfl⟩, plain,
    (stays.expands_iff _ _).2 ⟨rfl, rfl⟩⟩

end AnnotatedLisp
