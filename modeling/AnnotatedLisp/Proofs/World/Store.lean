import AnnotatedLisp.Proofs.Scopes.Chain
import AnnotatedLisp.Proofs.Stamps.Record
import AnnotatedLisp.Proofs.World.Basic

/-!
Computations lead from world to world.

A world describes a store if all values that the store holds are known, if each of its scopes is nested in an
earlier one, and if it keeps the bindings of each scope in order. A computation is sustained if it always
goes on to a later world: its result, an error that it raises and the store it leaves are then described
again. This module has the rules by which computations are put together, and what these do with the store.
-/

namespace AnnotatedLisp

open Eval

/-- Every scope keeps its bindings in order. -/
def Store.Ordered (s : Store) : Prop :=
  ∀ (id : ScopeId) (frame : Scope), s.scopes[id]? = some frame → Entries.Sorted frame.bindings

namespace World

structure KnowsStamps (w : World) (stamps : Stamps) : Prop where
  evaluated : ∀ value ∈ stamps.evaluated, w.Knows value
  applied : ∀ value ∈ stamps.applied, w.Knows value
  expansion : ∀ form ∈ stamps.expansion, w.Knows form

/-- The world is that of the store. -/
structure Describes (w : World) (s : Store) : Prop where
  nodes : s.nextNode = w.nodes
  scopes : s.scopes.size = w.scopes
  nested : s.WellFounded
  ordered : s.Ordered
  bindings : ∀ (id : ScopeId) (frame : Scope), s.scopes[id]? = some frame →
    ∀ binding ∈ frame.bindings, w.Knows binding.2
  stamps : ∀ node : NodeId, w.KnowsStamps (s.stampsAt node)

/-- The store that is left is described by a later world, and the result fits there. -/
inductive Leads {α : Type} (w : World) (p : World → α → Prop) : EStateM.Result Stop Store α → Prop
  | ok {a : α} {t : Store} {v : World} (later : w.Precedes v) (describes : v.Describes t)
      (fit : p v a) : Leads w p (.ok a t)
  | error {error : Error} {t : Store} {v : World} (later : w.Precedes v) (describes : v.Describes t)
      (known : v.KnowsError error) : Leads w p (.error (.error error) t)
  | exhausted {t : Store} {v : World} (later : w.Precedes v) (describes : v.Describes t) :
      Leads w p (.error .exhausted t)

/-- Wherever the computation starts in the world, it goes on to a later one. -/
def Sustains {α : Type} (w : World) (p : World → α → Prop) (x : Eval α) : Prop :=
  ∀ ⦃s : Store⦄, w.Describes s → w.Leads p (x s)

/-- The result of a check can be had in the world. -/
inductive Grants {α : Type} (w : World) (p : World → α → Prop) : Except Error α → Prop
  | ok {a : α} (fit : p w a) : Grants w p (.ok a)
  | error {error : Error} (known : w.KnowsError error) : Grants w p (.error error)

/-- No demand on a result. -/
abbrev Anything {α : Type} (_ : World) (_ : α) : Prop := True

abbrev KnowsAll (w : World) (values : List Value) : Prop :=
  ∀ value ∈ values, w.Knows value

abbrev KnowsEntries (w : World) (entries : List (MapKey × Value)) : Prop :=
  ∀ entry ∈ entries, w.Knows entry.2

abbrev HasScope (w : World) (scope : ScopeId) : Prop :=
  scope < w.scopes

section Rules

variable {α β : Type} {w v : World} {p : World → α → Prop} {q : World → β → Prop} {x : Eval α}

theorem KnowsStamps.mono {stamps : Stamps} (later : w.Precedes v) (known : w.KnowsStamps stamps) :
    v.KnowsStamps stamps where
  evaluated value mem := (known.evaluated value mem).mono later
  applied value mem := (known.applied value mem).mono later
  expansion form mem := (known.expansion form mem).mono later

theorem knowsAll_nil : w.KnowsAll [] :=
  List.forall_mem_nil _

theorem KnowsAll.mono {values : List Value} (later : w.Precedes v) (known : w.KnowsAll values) :
    v.KnowsAll values :=
  fun value mem => (known value mem).mono later

theorem KnowsEntries.mono {entries : List (MapKey × Value)} (later : w.Precedes v)
    (known : w.KnowsEntries entries) : v.KnowsEntries entries :=
  fun entry mem => (known entry mem).mono later

theorem HasScope.mono {scope : ScopeId} (later : w.Precedes v) (present : w.HasScope scope) :
    v.HasScope scope :=
  Nat.lt_of_lt_of_le present later.scopes

theorem Leads.earlier {outcome : EStateM.Result Stop Store α} (earlier : w.Precedes v)
    (leads : v.Leads p outcome) : w.Leads p outcome := by
  cases leads with
  | ok later describes fit => exact .ok (earlier.trans later) describes fit
  | error later describes known => exact .error (earlier.trans later) describes known
  | exhausted later describes => exact .exhausted (earlier.trans later) describes

theorem sustains_pure {a : α} (fit : p w a) : w.Sustains p (pure a) :=
  fun _ describes => .ok (.refl w) describes fit

theorem sustains_raise {error : Error} (known : w.KnowsError error) :
    w.Sustains p (raise error) :=
  fun _ describes => .error (.refl w) describes known

theorem sustains_exhausted : w.Sustains p (exhausted : Eval α) :=
  fun _ describes => .exhausted (.refl w) describes

theorem sustains_ofExcept {result : Except Error α} (grants : w.Grants p result) :
    w.Sustains p (ofExcept result) := by
  cases grants with
  | ok fit => exact sustains_pure fit
  | error known => exact sustains_raise known

theorem Grants.bind {x : Except Error α} {f : α → Except Error β} (first : w.Grants p x)
    (rest : ∀ a, p w a → w.Grants q (f a)) : w.Grants q (x >>= f) := by
  cases first with
  | ok fit => exact rest _ fit
  | error known => exact .error known

theorem Sustains.bind {f : α → Eval β} (first : w.Sustains p x)
    (rest : ∀ {v : World} (a : α), w.Precedes v → p v a → v.Sustains q (f a)) :
    w.Sustains q (x >>= f) := by
  intro s describes
  have leads := first describes
  generalize ends : x s = outcome at leads
  cases leads with
  | ok later describes fit =>
      rw [bind_of_ok ends]
      exact .earlier later (rest _ later fit describes)
  | error later describes known =>
      rw [bind_of_error ends]
      exact .error later describes known
  | exhausted later describes =>
      rw [bind_of_error ends]
      exact .exhausted later describes

/-- An error is a result like any other once it is caught. -/
theorem Sustains.attempt (h : w.Sustains p x) :
    w.Sustains (fun v result => v.Grants p result) x.attempt := by
  intro s describes
  have leads := h describes
  generalize ends : x s = outcome at leads
  cases leads with
  | ok later describes fit =>
      rw [attempt_of_ok ends]
      exact .ok later describes (.ok fit)
  | error later describes known =>
      rw [attempt_of_error ends]
      exact .ok later describes (.error known)
  | exhausted later describes =>
      rw [Eval.attempt, ends]
      exact .exhausted later describes

/-- What is done with items one after the other gives results that go on fitting. -/
theorem sustains_mapM {ι : Type} {f : ι → Eval α} {items : List ι}
    (keeps : ∀ {v u : World} {a : α}, v.Precedes u → p v a → p u a)
    (each : ∀ item ∈ items, ∀ {v : World}, w.Precedes v → v.Sustains p (f item)) :
    w.Sustains (fun v results => ∀ a ∈ results, p v a) (items.mapM f) := by
  induction items generalizing w with
  | nil =>
      rw [List.mapM_nil]
      exact sustains_pure nofun
  | cons item items ih =>
      rw [List.mapM_cons]
      refine (each item List.mem_cons_self (.refl w)).bind fun a later fit => ?_
      refine (ih fun other mem _ later' =>
        each other (List.mem_cons_of_mem item mem) (later.trans later')).bind fun rest later' fits => ?_
      exact sustains_pure (List.forall_mem_cons.2 ⟨keeps later' fit, fits⟩)

theorem sustains_forM {ι : Type} {f : ι → Eval Unit} {items : List ι}
    (each : ∀ item ∈ items, ∀ {v : World}, w.Precedes v → v.Sustains Anything (f item)) :
    w.Sustains Anything (items.forM f) := by
  induction items generalizing w with
  | nil => exact sustains_pure trivial
  | cons item items ih =>
      refine (each item List.mem_cons_self (.refl w)).bind fun _ later _ => ?_
      exact ih fun other mem _ later' => each other (List.mem_cons_of_mem item mem) (later.trans later')

end Rules

section Nodes

variable {w : World} {s : Store}

/-- One more node is made, for a value that is made of known ones. -/
theorem Describes.addNode (describes : w.Describes s) (value : Value) :
    (w.addNode value).Describes { s with nextNode := s.nextNode + 1 } where
  nodes := congrArg (· + 1) describes.nodes
  scopes := describes.scopes
  nested := describes.nested
  ordered := describes.ordered
  bindings id frame here binding mem :=
    (describes.bindings id frame here binding mem).mono (precedes_addNode w value)
  stamps node := (describes.stamps node).mono (precedes_addNode w value)

/-- A value around a new node is known if its parts are. -/
theorem sustains_newNode {f : NodeId → Value} {parts : List Value} {scope? : Option ScopeId}
    (labelled : ∀ node, (f node).identity? = some node)
    (made : ∀ node, (f node).parts = parts ∧ (f node).scope? = scope?)
    (known : w.KnowsAll parts) (present : ∀ scope ∈ scope?, w.HasScope scope) :
    w.Sustains Knows (newNode >>= fun node => pure (f node)) := by
  intro s describes
  rw [bind_of_ok (newNode_apply s), pure_apply, describes.nodes]
  have counted := describes.addNode (f w.nodes)
  rw [describes.nodes] at counted
  refine .ok (precedes_addNode w _) counted (knows_addNode (labelled _) ?_ ?_)
  · rwa [(made w.nodes).2]
  · rwa [(made w.nodes).1]

theorem sustains_newSeq (kind : SeqKind) {items : List Value} (known : w.KnowsAll items) :
    w.Sustains Knows (newSeq kind items) :=
  sustains_newNode (f := fun node => .seq node kind items) (fun _ => rfl) (fun _ => ⟨rfl, rfl⟩) known
    nofun

theorem sustains_newMap {entries : List (MapKey × Value)} (known : w.KnowsEntries entries) :
    w.Sustains Knows (newMap entries) :=
  sustains_newNode (f := fun node => .map node entries) (fun _ => rfl) (fun _ => ⟨rfl, rfl⟩)
    (List.forall_mem_map.2 known) nofun

theorem sustains_newFn {params body : Value} {scope : ScopeId} (isMacro : Bool) (known : w.Knows params)
    (known' : w.Knows body) (present : w.HasScope scope) :
    w.Sustains Knows (newNode >>= fun node => pure (.fn node params body scope isMacro)) :=
  sustains_newNode (f := fun node => .fn node params body scope isMacro) (fun _ => rfl)
    (fun _ => ⟨rfl, rfl⟩) (by simp [KnowsAll, known, known']) (by simpa [Form.scope?] using present)

end Nodes

section Scopes

variable {w : World} {s : Store} {scope : ScopeId} {name : String} {value : Value}

/-- A scope of the store in which one was made is the new one or an earlier one. -/
theorem frame_of_addScope {outer : Option ScopeId} {id : ScopeId} {frame : Scope}
    (here : (s.addScope outer).2.scopes[id]? = some frame) :
    id = s.scopes.size ∧ frame = ⟨[], outer⟩ ∨ s.scopes[id]? = some frame := by
  rw [Store.addScope, Array.getElem?_push] at here
  split at here
  next new => exact .inl ⟨new, (Option.some.inj here).symm⟩
  next => exact .inr here

theorem Describes.addScope (describes : w.Describes s) {outer : Option ScopeId}
    (present : ∀ id ∈ outer, w.HasScope id) : w.addScope.Describes (s.addScope outer).2 where
  nodes := describes.nodes
  scopes := by
    change (s.scopes.push _).size = _
    rw [Array.size_push, describes.scopes]
    rfl
  nested id frame here around mem := by
    obtain ⟨rfl, rfl⟩ | old := frame_of_addScope here
    · exact describes.scopes ▸ present around mem
    · exact describes.nested id frame old around mem
  ordered id frame here := by
    obtain ⟨_, rfl⟩ | old := frame_of_addScope here
    · exact Entries.sorted_nil
    · exact describes.ordered id frame old
  bindings id frame here binding mem := by
    obtain ⟨_, rfl⟩ | old := frame_of_addScope here
    · cases mem
    · exact (describes.bindings id frame old binding mem).mono (precedes_addScope w)
  stamps node := (describes.stamps node).mono (precedes_addScope w)

theorem sustains_addScope {outer : Option ScopeId} (present : ∀ id ∈ outer, w.HasScope id) :
    w.Sustains HasScope (modifyGet fun s => s.addScope outer) := by
  intro s describes
  have made : (modifyGet fun s => s.addScope outer : Eval ScopeId) s =
      .ok s.scopes.size (s.addScope outer).2 := rfl
  rw [made, describes.scopes]
  exact .ok (precedes_addScope w) (describes.addScope present) (Nat.lt_succ_self _)

theorem sustains_newScope {outer : ScopeId} (present : w.HasScope outer) :
    w.Sustains HasScope (newScope outer) :=
  sustains_addScope (by simpa using present)

/-- A scope of the store in which a name was defined is as it was, but for the name. -/
theorem frame_of_define {id : ScopeId} {frame : Scope}
    (here : (s.define scope name value).scopes[id]? = some frame) :
    ∃ old : Scope, s.scopes[id]? = some old ∧ frame.outer = old.outer ∧
      (frame.bindings = old.bindings ∨ frame.bindings = old.bindings.insert name value) := by
  rw [Store.getElem?_define] at here
  split at here
  · obtain ⟨old, found, rfl⟩ := Option.map_eq_some_iff.1 here
    exact ⟨old, found, rfl, .inr rfl⟩
  · exact ⟨frame, here, rfl, .inl rfl⟩

theorem Describes.define (describes : w.Describes s) (scope : ScopeId) (name : String)
    (known : w.Knows value) : w.Describes (s.define scope name value) where
  nodes := describes.nodes
  scopes := Array.size_modify.trans describes.scopes
  nested id frame here around mem := by
    obtain ⟨old, found, outer, _⟩ := frame_of_define here
    exact describes.nested id old found around (outer ▸ mem)
  ordered id frame here := by
    obtain ⟨old, found, _, same | inserted⟩ := frame_of_define here
    · exact same ▸ describes.ordered id old found
    · exact inserted ▸ Entries.sorted_insert (describes.ordered id old found)
  bindings id frame here binding mem := by
    obtain ⟨old, found, _, same | inserted⟩ := frame_of_define here
    · exact describes.bindings id old found binding (same ▸ mem)
    · rw [inserted] at mem
      obtain rfl | mem := Entries.mem_insert mem
      · exact known
      · exact describes.bindings id old found binding mem
  stamps := describes.stamps

theorem sustains_define (scope : ScopeId) (name : String) (known : w.Knows value) :
    w.Sustains Anything (Eval.define scope name value) :=
  fun _ describes => .ok (.refl w) (describes.define scope name known) trivial

/-- A value that is found under a name is the value of a binding. -/
theorem Describes.lookup (describes : w.Describes s) (found : s.lookup name scope = some value) :
    w.Knows value := by
  obtain ⟨binder, _, own⟩ := (Store.lookup_eq_some_iff describes.nested).1 found
  obtain ⟨frame, here, bound⟩ := Option.bind_eq_some_iff.1 own
  exact describes.bindings binder frame here _ (Entries.mem_of_find? bound)

theorem sustains_lookup? (scope : ScopeId) (name : String) :
    w.Sustains (fun v found => ∀ value ∈ found, v.Knows value) (lookup? scope name) :=
  fun _ describes => .ok (.refl w) describes fun _ found => describes.lookup found

theorem sustains_lookup (scope : ScopeId) (name : String) :
    w.Sustains Knows (lookup scope name) := by
  refine (sustains_lookup? scope name).bind fun found _ known => ?_
  cases found with
  | some value => exact sustains_pure (known value rfl)
  | none => exact sustains_raise trivial

end Scopes

section Stamps

variable {w : World} {s : Store}

theorem Describes.stamp (describes : w.Describes s) (node : NodeId) {change : Stamps → Stamps}
    (keeps : ∀ stamps, w.KnowsStamps stamps → w.KnowsStamps (change stamps)) :
    w.Describes (s.stamp node change) :=
  { describes with
    stamps := fun other => by
      rw [Store.stampsAt_stamp]
      split
      · exact keeps _ (describes.stamps other)
      · exact describes.stamps other }

theorem sustains_stamp (ctx : Context) (node : NodeId) {change : Stamps → Stamps}
    (keeps : ∀ stamps, w.KnowsStamps stamps → w.KnowsStamps (change stamps)) :
    w.Sustains Anything (ctx.stamp node change) := by
  rw [Context.stamp]
  split
  · exact fun _ describes => .ok (.refl w) (describes.stamp node keeps) trivial
  · exact sustains_pure trivial

theorem sustains_stampForm (ctx : Context) (form : Value) {change : Stamps → Stamps}
    (keeps : ∀ stamps, w.KnowsStamps stamps → w.KnowsStamps (change stamps)) :
    w.Sustains Anything (ctx.stampForm form change) := by
  rw [Context.stampForm]
  split
  · exact sustains_stamp ctx _ keeps
  · exact sustains_pure trivial

variable {value : Value} {stamps : Stamps}

theorem KnowsStamps.withEvaluated (known : w.Knows value) (h : w.KnowsStamps stamps) :
    w.KnowsStamps { stamps with evaluated := some value } :=
  { h with evaluated := by simpa using known }

theorem KnowsStamps.withApplied (known : w.Knows value) (h : w.KnowsStamps stamps) :
    w.KnowsStamps { stamps with applied := some value } :=
  { h with applied := by simpa using known }

theorem KnowsStamps.withExpansion (known : w.Knows value) (h : w.KnowsStamps stamps) :
    w.KnowsStamps { stamps with expansion := some value } :=
  { h with expansion := by simpa using known }

end Stamps

end World

end AnnotatedLisp
