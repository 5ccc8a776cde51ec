import AnnotatedLisp.Proofs.Composition
import AnnotatedLisp.Proofs.Scopes.Definition

/-!
Scope chains end.

A scope is made inside one that exists, and where it lies never changes. So on the way outwards no scope is met
twice, and the way ends in a scope that lies in no other. Functions may be bound in the very scopes that they were
made in, but lookups and listings only follow the way outwards.
-/

namespace AnnotatedLisp

namespace Store

variable {s t : Store} {id outer : ScopeId} {chain : List ScopeId} {frame : Scope}

/-- The scopes that are met on the way outwards, up to one that lies in no other. -/
inductive Chain (s : Store) : ScopeId → List ScopeId → Prop
  | outermost {id : ScopeId} {frame : Scope} (here : s.scopes[id]? = some frame) (last : frame.outer = none) :
      Chain s id [id]
  | within {id outer : ScopeId} {chain : List ScopeId} {frame : Scope} (here : s.scopes[id]? = some frame)
      (around : frame.outer = some outer) (rest : Chain s outer chain) : Chain s id (id :: chain)

/-- A name is looked up on the way outwards, up to a scope that binds it or else to the last one. -/
inductive LooksUp (s : Store) (name : String) : ScopeId → Option Value → Prop
  | bound {id : ScopeId} {frame : Scope} {value : Value} (here : s.scopes[id]? = some frame)
      (own : frame.bindings.find? name = some value) : LooksUp s name id (some value)
  | outermost {id : ScopeId} {frame : Scope} (here : s.scopes[id]? = some frame)
      (free : frame.bindings.find? name = none) (last : frame.outer = none) : LooksUp s name id none
  | within {id outer : ScopeId} {frame : Scope} {result : Option Value} (here : s.scopes[id]? = some frame)
      (free : frame.bindings.find? name = none) (around : frame.outer = some outer)
      (rest : LooksUp s name outer result) : LooksUp s name id result

/-- The bindings of a scope are listed over those that are listed of the scope around it. -/
inductive Lists (s : Store) : ScopeId → Entries String Value → Prop
  | outermost {id : ScopeId} {frame : Scope} (here : s.scopes[id]? = some frame) (last : frame.outer = none) :
      Lists s id frame.bindings
  | within {id outer : ScopeId} {frame : Scope} {entries : Entries String Value}
      (here : s.scopes[id]? = some frame) (around : frame.outer = some outer) (rest : Lists s outer entries) :
      Lists s id (Entries.overlay entries frame.bindings)

section Nested

variable (nested : s.WellFounded)

include nested

/-- From every scope the way outwards ends. -/
theorem exists_chain (present : id < s.scopes.size) : ∃ chain, s.Chain id chain := by
  -- The induction is on the scope: the one around it is earlier, and so it exists as well.
  induction id using Nat.strongRecOn with
  | ind id ih =>
      have here : s.scopes[id]? = some s.scopes[id] := Array.getElem?_eq_getElem present
      cases around : s.scopes[id].outer with
      | none => exact ⟨[id], .outermost here around⟩
      | some outer =>
          have earlier : outer < id := nested id _ here outer around
          obtain ⟨chain, rest⟩ := ih outer earlier (Nat.lt_trans earlier present)
          exact ⟨id :: chain, .within here around rest⟩

namespace Chain

/-- The scopes of a chain are earlier and earlier ones. -/
theorem descends (h : s.Chain id chain) :
    chain.Pairwise (fun inner outer => outer < inner) ∧ ∀ scope ∈ chain, scope ≤ id := by
  induction h with
  | outermost => simp
  | @within id outer chain frame here around rest ih =>
      obtain ⟨descends, below⟩ := ih
      have earlier : outer < id := nested id frame here outer around
      have above : ∀ scope ∈ chain, scope < id := fun scope mem =>
        Nat.lt_of_le_of_lt (below scope mem) earlier
      refine ⟨List.pairwise_cons.2 ⟨above, descends⟩, List.forall_mem_cons.2 ⟨Nat.le_refl id, ?_⟩⟩
      exact fun scope mem => Nat.le_of_lt (above scope mem)

theorem nodup (h : s.Chain id chain) : chain.Nodup :=
  (h.descends nested).1.imp fun less => (Nat.ne_of_lt less).symm

/-- A lookup ends where the chain ends, if not before. -/
theorem looksUp (h : s.Chain id chain) (name : String) : s.LooksUp name id (s.lookup name id) := by
  induction h with
  | @outermost id frame here last =>
      rw [lookup_eq nested, own?, outer?, here, Option.bind_some, Option.bind_some, last]
      cases own : frame.bindings.find? name with
      | some value => exact .bound here own
      | none => exact .outermost here own last
  | @within id outer chain frame here around rest ih =>
      rw [lookup_eq nested, own?, outer?, here, Option.bind_some, Option.bind_some, around]
      cases own : frame.bindings.find? name with
      | some value => exact .bound here own
      | none => exact .within here own around ih

/-- A listing goes on to the end of the chain. -/
theorem lists (h : s.Chain id chain) : s.Lists id (s.visible id) := by
  induction h with
  | outermost here last =>
      rw [visible_eq nested here, last]
      exact .outermost here last
  | within here around rest ih =>
      rw [visible_eq nested here, around]
      exact .within here around ih

end Chain

/-- No lookup ends with anything else. -/
theorem LooksUp.eq_lookup {name : String} {result : Option Value} (h : s.LooksUp name id result) :
    result = s.lookup name id := by
  induction h with
  | bound here own => rw [lookup_eq nested, own?, here, Option.bind_some, own, Option.some_or]
  | outermost here free last =>
      rw [lookup_eq nested, own?, outer?, here, Option.bind_some, Option.bind_some, free, last]
      rfl
  | within here free around rest ih =>
      rw [lookup_eq nested, own?, outer?, here, Option.bind_some, Option.bind_some, free, around]
      exact ih

theorem Lists.eq_visible {entries : Entries String Value} (h : s.Lists id entries) : entries = s.visible id := by
  induction h with
  | outermost here last => rw [visible_eq nested here, last]
  | within here around rest ih => rw [visible_eq nested here, around, ih]

end Nested

section Links

/-- All scopes are still there, each inside the scope that it was in. -/
def Extends (s t : Store) : Prop :=
  ∀ id < s.scopes.size, id < t.scopes.size ∧ t.outer? id = s.outer? id

theorem respected_extends : Eval.Respected Extends where
  refl _ _ present := ⟨present, rfl⟩
  trans first rest id present :=
    have ⟨later, same⟩ := first id present
    have ⟨last, same'⟩ := rest id later
    ⟨last, same'.trans same⟩
  newNode _ _ present := ⟨present, rfl⟩
  addScope s outer id present := by
    refine ⟨?_, by rw [outer?, outer?, getElem?_addScope present]⟩
    rw [addScope, Array.size_push]
    exact Nat.lt_succ_of_lt present
  define s scope name value id present := by
    refine ⟨?_, outer?_define scope name value id⟩
    rw [define, Array.size_modify]
    exact present
  stamp _ _ _ _ present := ⟨present, rfl⟩
  say _ _ _ present := ⟨present, rfl⟩

/-- The second store is left behind by actions in the first one and what they leave behind, however they end. -/
inductive Becomes (s : Store) : Store → Prop
  | refl : Becomes s s
  | act {t : Store} (earlier : Becomes s t) (action : Action) (composed : action.Composed) :
      Becomes s (action.run.after t)

theorem Becomes.extends (h : s.Becomes t) : s.Extends t := by
  induction h with
  | refl => exact respected_extends.refl s
  | act earlier action composed ih =>
      exact respected_extends.trans ih ((Action.composed_run composed).respects respected_extends _)

end Links

/-- The value is bound in a scope or recorded at a node. -/
inductive Keeps (s : Store) : Value → Prop
  | bound {id : ScopeId} {frame : Scope} {binding : String × Value} (here : s.scopes[id]? = some frame)
      (mem : binding ∈ frame.bindings) : Keeps s binding.2
  | evaluated {node : NodeId} {value : Value} (recorded : value ∈ (s.stampsAt node).evaluated) : Keeps s value
  | applied {node : NodeId} {value : Value} (recorded : value ∈ (s.stampsAt node).applied) : Keeps s value
  | expansion {node : NodeId} {value : Value} (recorded : value ∈ (s.stampsAt node).expansion) : Keeps s value

theorem Keeps.knows {w : World} {value : Value} (h : s.Keeps value) (describes : w.Describes s) :
    w.Knows value := by
  cases h with
  | bound here mem => exact describes.bindings _ _ here _ mem
  | evaluated recorded => exact (describes.stamps _).evaluated _ recorded
  | applied recorded => exact (describes.stamps _).applied _ recorded
  | expansion recorded => exact (describes.stamps _).expansion _ recorded

/-- In every store that can be reached, the way outwards from a scope comes to an end without meeting any scope
twice, also from the scopes of all functions and operations that are held, or bound or recorded in the store, or
are parts of such values. Whatever is done next, each scope stays inside the scope that it is in. So each lookup
and each listing ends, with what the store gives. -/
theorem scope_chains_end {held : List Value} (reached : s.Reached held) :
    (∀ id < s.scopes.size, ∃ chain, s.Chain id chain ∧ chain.Nodup) ∧
    (∀ value, value ∈ held ∨ s.Keeps value → value.AllParts fun part =>
      ∀ id ∈ part.scope?, ∃ chain, s.Chain id chain ∧ chain.Nodup) ∧
    (∀ t, s.Becomes t → ∀ id < s.scopes.size, id < t.scopes.size ∧ t.outer? id = s.outer? id) ∧
    ∀ id < s.scopes.size,
      (∀ name result, s.LooksUp name id result ↔ result = s.lookup name id) ∧
      ∀ entries, s.Lists id entries ↔ entries = s.visible id := by
  obtain ⟨w, describes, holds⟩ := World.exists_describes reached
  have nested := describes.nested
  have ends : ∀ id < s.scopes.size, ∃ chain, s.Chain id chain ∧ chain.Nodup := fun id present =>
    have ⟨chain, h⟩ := exists_chain nested present
    ⟨chain, h, h.nodup nested⟩
  refine ⟨ends, fun value kept => ?_, fun t becomes => becomes.extends, fun id present => ?_⟩
  · have known : w.Knows value := kept.elim (holds value) fun keeps => keeps.knows describes
    exact Form.AllParts.mono (fun part made id mem => ends id (describes.scopes ▸ made.scope id mem)) value known
  · obtain ⟨chain, h⟩ := exists_chain nested present
    refine ⟨fun name result => ⟨fun found => found.eq_lookup nested, ?_⟩,
      fun entries => ⟨fun listed => listed.eq_visible nested, ?_⟩⟩
    · rintro rfl
      exact h.looksUp nested name
    · rintro rfl
      exact h.lists nested

/-- A function that was made in the first scope. -/
def looping : Value :=
  .fn 0 (.symbol "x") (.symbol "f") 0 false

/-- One scope, and in it a name for a function that was made there. -/
def loop : Store :=
  Store.define { (empty.addScope none).2 with nextNode := 1 } 0 "f" looping

theorem reached_loop : loop.Reached [looping] := by
  have scope := Reached.start.addScope none nofun
  have closed : Form.AllParts (fun form : Datum => ∀ scope ∈ form.scope?, scope < 1)
      (.fn () (.symbol "x") (.symbol "f") 0 false) := by
    simp [Form.AllParts, Form.scope?]
  have made := @Reached.done _ _ _ [looping] (.load (.fn () (.symbol "x") (.symbol "f") 0 false)) scope closed rfl
  exact made.define (by decide) "f" (by simp)

/-- The scope that the function was made in lies in no other, and still does so after the name was evaluated and
another scope was made. The name is found in it, and another name is not. -/
theorem scope_chains_end_of_loop :
    loop.Reached [looping] ∧ loop.Keeps looping ∧ (∃ chain, loop.Chain 0 chain ∧ chain.Nodup) ∧
      (∃ t, loop.Becomes t ∧ t.scopes.size = 2 ∧ t.outer? 0 = none) ∧
      loop.LooksUp "f" 0 (some looping) ∧ loop.LooksUp "x" 0 none := by
  obtain ⟨-, captured, links, ends⟩ := scope_chains_end reached_loop
  have kept : loop.Keeps looping := @Keeps.bound loop 0 ⟨[("f", looping)], none⟩ ("f", looping) rfl (by simp)
  have evaluated : loop.Becomes _ :=
    Becomes.refl.act (.evaluate .none 3 (.top true) (.symbol "f") 0) Host.none_composed
  have nested := evaluated.act (.newScope (some 0)) trivial
  obtain ⟨found, -⟩ := ends 0 (by decide)
  exact ⟨reached_loop, kept, (captured looping (.inr kept)).1 0 rfl,
    ⟨_, nested, rfl, (links _ nested 0 (by decide)).2⟩, (found "f" _).2 rfl, (found "x" _).2 rfl⟩

end Store

end AnnotatedLisp
