import AnnotatedLisp.Proofs.World.Run

/-!
The stores that there can be.

A program in which the language is embedded starts with an empty store. It acts on the store with the scopes
that exist and with the values that it holds, and it comes to hold the values that it is given back: results,
thrown values, and parts of what it holds. Every store that it can reach is described by a world.
-/

namespace AnnotatedLisp

open Eval

/-- What can be done with a store from outside. -/
inductive Action where
  | newScope (outer : Option ScopeId)
  | newGlobalScope
  | callScope (outer : ScopeId) (params : Value) (args : List Value)
  | lookup (scope : ScopeId) (name : String)
  | define (scope : ScopeId) (name : String) (value : Value)
  | register (scope : ScopeId) (name : String)
  | bindAll (scope : ScopeId) (params : Value) (args : List Value)
  | load (datum : Datum)
  | newSeq (kind : SeqKind) (items : List Value)
  | newMap (pairs : List (MapKey × Value))
  | quasiquote (template : Value)
  | evaluate (host : Host) (fuel : Nat) (ctx : Context) (form : Value) (scope : ScopeId)
  | macroexpand (host : Host) (fuel : Nat) (ctx : Context) (form : Value) (scope : ScopeId)
  | applyNative (host : Host) (fuel : Nat) (operation : Native) (args : List Value)
  | recorded (node : NodeId)
  | forget (node : NodeId)
  | say (text : String)

namespace Action

/-- The action, and the values that it gives. -/
def run : Action → Eval (List Value)
  | newScope outer => do
    let _ : ScopeId ← modifyGet fun s => s.addScope outer
    return []
  | newGlobalScope => do
    let _ ← Eval.newGlobalScope
    return []
  | callScope outer params args => do
    let _ ← Params.newScope outer params args
    return []
  | lookup scope name => return [← Eval.lookup scope name]
  | define scope name value => do
    Eval.define scope name value
    return []
  | register scope name => do
    Eval.define scope name (.native (.host name scope))
    return []
  | bindAll scope params args => do
    Params.bindAll scope params args
    return []
  | load datum => return [← Eval.load datum]
  | newSeq kind items => return [← Eval.newSeq kind items]
  | newMap pairs => return [← Eval.newMap (Entries.ofList pairs)]
  | quasiquote template => return [← Template.builder template]
  | evaluate host fuel ctx form scope => return [← AnnotatedLisp.evaluate host fuel ctx form scope]
  | macroexpand host fuel ctx form scope =>
    return [← AnnotatedLisp.macroexpand host fuel ctx form scope]
  | applyNative host fuel operation args =>
    return [← AnnotatedLisp.applyNative host fuel operation args]
  | recorded node => do
    let stamps := (← get).stampsAt node
    return stamps.evaluated.toList ++ stamps.applied.toList ++ stamps.expansion.toList
  | forget node => do
    Eval.stamp node fun _ => .none
    return []
  | say text => do
    Eval.say text
    return []

/-- The action is taken with scopes that exist, of which there are so many, and with values that are held. -/
def Possible (scopes : Nat) (held : List Value) : Action → Prop
  | newScope outer => ∀ scope ∈ outer, scope < scopes
  | callScope outer params args => outer < scopes ∧ params ∈ held ∧ args ⊆ held
  | lookup scope _ | register scope _ => scope < scopes
  | define scope _ value => scope < scopes ∧ value ∈ held
  | bindAll scope params args => scope < scopes ∧ params ∈ held ∧ args ⊆ held
  | load datum => datum.AllParts fun form => ∀ scope ∈ form.scope?, scope < scopes
  | newSeq _ items => items ⊆ held
  | newMap pairs => ∀ pair ∈ pairs, pair.2 ∈ held
  | quasiquote template => template ∈ held
  | evaluate host _ _ form scope | macroexpand host _ _ form scope =>
    host.Sound held scopes ∧ form ∈ held ∧ scope < scopes
  | applyNative host _ operation args =>
    host.Sound held scopes ∧ .native operation ∈ held ∧ args ⊆ held
  | newGlobalScope | recorded _ | forget _ | say _ => True

end Action

/-- The store can be reached, by someone who then holds the values. An action that takes long is also underway
in the stores at which it stops if it is granted fewer steps. -/
inductive Store.Reached : Store → List Value → Prop
  | start : Reached .empty []
  | done {s t : Store} {held values : List Value} {action : Action} (reached : Reached s held)
      (possible : action.Possible s.scopes.size held) (ends : action.run s = .ok values t) :
      Reached t (values ++ held)
  | failed {s t : Store} {held : List Value} {action : Action} {error : Error} (reached : Reached s held)
      (possible : action.Possible s.scopes.size held) (ends : action.run s = .error (.error error) t) :
      Reached t (error.caught :: held)
  | underway {s t : Store} {held : List Value} {action : Action} (reached : Reached s held)
      (possible : action.Possible s.scopes.size held) (ends : action.run s = .error .exhausted t) :
      Reached t held
  | part {s : Store} {held : List Value} {value part : Value} (reached : Reached s held)
      (holds : value ∈ held) (mem : part ∈ value.parts) : Reached s (part :: held)
  | atom {s : Store} {held : List Value} {value : Value} (reached : Reached s held)
      (unlabelled : value.identity? = none) (closed : value.scope? = none) (whole : value.parts = []) :
      Reached s (value :: held)

namespace Store.Reached

variable {s : Store} {held : List Value}

theorem addScope (reached : s.Reached held) (outer : Option ScopeId)
    (present : ∀ id ∈ outer, id < s.scopes.size) : (s.addScope outer).2.Reached held :=
  @done _ _ _ [] (.newScope outer) reached present rfl

theorem define (reached : s.Reached held) {scope : ScopeId} (present : scope < s.scopes.size)
    (name : String) {value : Value} (holds : value ∈ held) : (s.define scope name value).Reached held :=
  @done _ _ _ [] (.define scope name value) reached ⟨present, holds⟩ rfl

end Store.Reached

namespace World

variable {w : World} {s : Store} {held : List Value}

theorem empty_describes : empty.Describes .empty where
  nodes := rfl
  scopes := rfl
  nested _ _ here := by cases here
  ordered _ _ here := by cases here
  bindings _ _ here := by cases here
  stamps _ := by
    rw [Store.stampsAt, Store.empty, Std.TreeMap.getD_emptyc]
    exact ⟨nofun, nofun, nofun⟩

theorem sustains_newGlobalScope : w.Sustains HasScope Eval.newGlobalScope := by
  have none : ∀ id ∈ (none : Option ScopeId), w.HasScope id := nofun
  refine (sustains_addScope none).bind fun {v} scope _ new => ?_
  have defined : v.Sustains Anything
      (CoreOp.all.forM fun op => Eval.define scope op.name (.native (.core op))) :=
    sustains_forM fun op _ _ _ => sustains_define scope op.name (knows_of_atom rfl rfl rfl)
  exact defined.bind fun _ later _ => sustains_pure (HasScope.mono later new)

theorem sustains_recorded (node : NodeId) : w.Sustains KnowsAll (Action.recorded node).run := by
  intro s describes
  have known := describes.stamps node
  refine .ok (.refl w) describes fun value mem => ?_
  obtain mem | mem | mem : value ∈ (s.stampsAt node).evaluated ∨ value ∈ (s.stampsAt node).applied ∨
      value ∈ (s.stampsAt node).expansion := by
    simpa using mem
  · exact known.evaluated value mem
  · exact known.applied value mem
  · exact known.expansion value mem

section Actions

variable {α : Type} {x : Eval α}

/-- An action that gives nothing. -/
theorem Sustains.gainless {p : World → α → Prop} (h : w.Sustains p x) :
    w.Sustains KnowsAll (do let _ ← x; return []) :=
  h.bind fun _ _ _ => sustains_pure knowsAll_nil

/-- An action that gives one value. -/
theorem Sustains.gaining {x : Eval Value} (h : w.Sustains Knows x) :
    w.Sustains KnowsAll (do return [← x]) :=
  h.bind fun _ _ known => sustains_pure (by simpa [KnowsAll] using known)

end Actions

theorem sustains_action (holds : w.KnowsAll held) {action : Action}
    (possible : action.Possible w.scopes held) : w.Sustains KnowsAll action.run := by
  have holdsAll {values : List Value} (among : values ⊆ held) : w.KnowsAll values :=
    fun value mem => holds value (among mem)
  cases action with
  | newScope outer => exact (sustains_addScope possible).gainless
  | newGlobalScope => exact sustains_newGlobalScope.gainless
  | callScope outer params args =>
      obtain ⟨present, _, args⟩ := possible
      exact (sustains_callScope present params (holdsAll args)).gainless
  | lookup scope name => exact (sustains_lookup scope name).gaining
  | define scope name value => exact (sustains_define scope name (holds value possible.2)).gainless
  | register scope name =>
      have known : w.Knows (.native (.host name scope)) :=
        knows_iff.2 ⟨⟨nofun, by rintro _ ⟨⟩; exact possible⟩, nofun⟩
      exact (sustains_define scope name known).gainless
  | bindAll scope params args => exact (sustains_bindAll scope params (holdsAll possible.2.2)).gainless
  | load datum => exact (sustains_load datum possible).gaining
  | newSeq kind items => exact (sustains_newSeq kind (holdsAll possible)).gaining
  | newMap pairs =>
      have known : w.KnowsEntries (Entries.ofList pairs) := fun entry mem =>
        holds entry.2 (possible entry (Entries.mem_ofList mem))
      exact (sustains_newMap known).gaining
  | quasiquote template => exact (sustains_builder template (holds template possible)).gaining
  | evaluate host fuel ctx form scope =>
      obtain ⟨sound, held, present⟩ := possible
      exact (sustains_evaluate sound ⟨holds, Nat.le_refl _⟩ fuel ctx (holds form held) present).gaining
  | macroexpand host fuel ctx form scope =>
      obtain ⟨sound, held, present⟩ := possible
      exact (sustains_macroexpand sound ⟨holds, Nat.le_refl _⟩ fuel ctx (holds form held) present).gaining
  | applyNative host fuel operation args =>
      obtain ⟨sound, held, args⟩ := possible
      exact (sustains_applyNative sound ⟨holds, Nat.le_refl _⟩ fuel (holds _ held) (holdsAll args)).gaining
  | recorded node => exact sustains_recorded node
  | forget node =>
      have forgets : w.Sustains Anything (Eval.stamp node fun _ => .none) := fun _ describes =>
        .ok (.refl w) (describes.stamp node fun _ _ => ⟨nofun, nofun, nofun⟩) trivial
      exact forgets.gainless
  | say text => exact (sustains_say text).gainless

/-- Every store that is reached is described by a world, which knows all values that are held. -/
theorem exists_describes (reached : s.Reached held) : ∃ w : World, w.Describes s ∧ w.KnowsAll held := by
  -- An action leads from the world before it, however it ends.
  have acts {s : Store} {held : List Value} {action : Action} {w : World} (describes : w.Describes s)
      (holds : w.KnowsAll held) (possible : action.Possible s.scopes.size held) :
      w.Leads KnowsAll (action.run s) :=
    sustains_action holds (describes.scopes ▸ possible) describes
  induction reached with
  | start => exact ⟨empty, empty_describes, knowsAll_nil⟩
  | done reached possible ends ih =>
      obtain ⟨w, describes, holds⟩ := ih
      have leads := acts describes holds possible
      rw [ends] at leads
      cases leads with
      | ok later describes known =>
          exact ⟨_, describes, List.forall_mem_append.2 ⟨known, KnowsAll.mono later holds⟩⟩
  | failed reached possible ends ih =>
      obtain ⟨w, describes, holds⟩ := ih
      have leads := acts describes holds possible
      rw [ends] at leads
      cases leads with
      | error later describes known =>
          exact ⟨_, describes, List.forall_mem_cons.2 ⟨known.caught, KnowsAll.mono later holds⟩⟩
  | underway reached possible ends ih =>
      obtain ⟨w, describes, holds⟩ := ih
      have leads := acts describes holds possible
      rw [ends] at leads
      cases leads with
      | exhausted later describes => exact ⟨_, describes, KnowsAll.mono later holds⟩
  | part reached holds mem ih =>
      obtain ⟨w, describes, known⟩ := ih
      exact ⟨w, describes, List.forall_mem_cons.2 ⟨(known _ holds).part mem, known⟩⟩
  | atom reached unlabelled closed whole ih =>
      obtain ⟨w, describes, known⟩ := ih
      exact ⟨w, describes, List.forall_mem_cons.2 ⟨knows_of_atom unlabelled closed whole, known⟩⟩

end World

end AnnotatedLisp
