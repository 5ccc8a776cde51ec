import AnnotatedLisp.Eval.Special
import AnnotatedLisp.Proofs.World.Store

/-!
The binding of parameters, the loading of data and the building of forms lead from world to world.
-/

namespace AnnotatedLisp

open Eval

theorem Form.mem_elements? {ι : Type} {form : Form ι} {items : List (Form ι)}
    (elements : form.elements? = some items) : ∀ item ∈ items, item ∈ form.parts := by
  cases form with
  | nil =>
      cases elements
      exact nofun
  | seq label kind own =>
      cases elements
      exact fun _ mem => mem
  | _ => cases elements

namespace World

variable {w : World}

theorem Knows.elements {value : Value} {items : List Value} (known : w.Knows value)
    (elements : value.elements? = some items) : w.KnowsAll items :=
  fun item mem => known.part (Form.mem_elements? elements item mem)

theorem Knows.items {label : NodeId} {kind : SeqKind} {items : List Value}
    (known : w.Knows (.seq label kind items)) : w.KnowsAll items :=
  fun _ mem => known.part mem

theorem Knows.entries {label : NodeId} {entries : List (MapKey × Value)}
    (known : w.Knows (.map label entries)) : w.KnowsEntries entries :=
  fun _ mem => known.part (List.mem_map_of_mem mem)

/-- The scope and the parts of a function that is known. -/
theorem Knows.function {label : NodeId} {params body : Value} {scope : ScopeId} {isMacro : Bool}
    (known : w.Knows (.fn label params body scope isMacro)) :
    w.Knows params ∧ w.Knows body ∧ w.HasScope scope :=
  ⟨known.part (by simp [Form.parts]), known.part (by simp [Form.parts]),
    (knows_iff.1 known).1.scope scope rfl⟩

theorem knows_symbol (name : String) : w.Knows (.symbol name) :=
  knows_of_atom rfl rfl rfl

theorem knows_nil : w.Knows .nil :=
  knows_of_atom rfl rfl rfl

section Parameters

theorem grants_arity (arity : Arity) (got : Nat) : w.Grants Anything (arity.check got) := by
  rw [Arity.check]
  split
  · exact .ok trivial
  · exact .error trivial

theorem grants_check (params : List Value) (got : Nat) :
    w.Grants Anything (Params.check params got) := by
  rw [Params.check]
  split
  · exact grants_arity _ got
  · exact .error trivial

mutual

theorem sustains_bind (scope : ScopeId) : ∀ {w : World} (param value : Value), w.Knows value →
    w.Sustains Anything (Params.bind scope param value)
  | _, .symbol name, _, known => by
      rw [Params.bind]
      exact sustains_define scope name known
  | _, .seq label kind params, value, known => by
      rw [Params.bind]
      split
      next items elements =>
        refine (sustains_ofExcept (grants_check params items.length)).bind fun _ later _ => ?_
        exact sustains_bindItems scope params items (KnowsAll.mono later (known.elements elements))
      next => exact sustains_raise trivial
  | _, .nil, _, _ | _, .bool _, _, _ | _, .number _, _, _ | _, .string _, _, _ | _, .keyword _, _, _
  | _, .map _ _, _, _ | _, .native _, _, _ | _, .fn _ _ _ _ _, _, _ => sustains_raise trivial

theorem sustains_bindItems (scope : ScopeId) : ∀ {w : World} (params items : List Value),
    w.KnowsAll items → w.Sustains Anything (Params.bindItems scope params items)
  | _, [], _, _ => by
      rw [Params.bindItems]
      exact sustains_pure trivial
  | _, param :: params, items, known => by
      rw [Params.bindItems.eq_def]
      dsimp only
      split
      · cases params with
        | nil => exact sustains_pure trivial
        | cons rest _ =>
            exact (sustains_newSeq .list known).bind fun list _ made => sustains_bind scope rest list made
      · cases items with
        | nil => exact sustains_pure trivial
        | cons item items =>
            obtain ⟨first, others⟩ := List.forall_mem_cons.1 known
            refine (sustains_bind scope param item first).bind fun _ later _ => ?_
            exact sustains_bindItems scope params items (KnowsAll.mono later others)

end

theorem sustains_bindAll (scope : ScopeId) (params : Value) {args : List Value}
    (known : w.KnowsAll args) : w.Sustains Anything (Params.bindAll scope params args) := by
  cases params with
  | symbol name =>
      exact (sustains_newSeq .list known).bind fun list _ made => sustains_define scope name made
  | seq label kind params =>
      refine (sustains_ofExcept (grants_check params args.length)).bind fun _ later _ => ?_
      exact sustains_bindItems scope params args (KnowsAll.mono later known)
  | _ => exact sustains_raise trivial

theorem sustains_callScope {outer : ScopeId} (present : w.HasScope outer) (params : Value)
    {args : List Value} (known : w.KnowsAll args) :
    w.Sustains HasScope (Params.newScope outer params args) := by
  refine (sustains_newScope present).bind fun scope later new => ?_
  refine (sustains_bindAll scope params (KnowsAll.mono later known)).bind fun _ later' _ => ?_
  exact sustains_pure (HasScope.mono later' new)

theorem sustains_checkParams (form : String) (params : Value) :
    w.Sustains Anything (Special.checkParams form params) := by
  cases params with
  | symbol _ | seq _ _ _ => exact sustains_pure trivial
  | _ => exact sustains_raise trivial

end Parameters

section Data

/-- The scopes that a datum refers to exist. -/
abbrev HasScopes (w : World) (datum : Datum) : Prop :=
  datum.AllParts fun form => ∀ scope ∈ form.scope?, w.HasScope scope

theorem HasScopes.mono {v : World} {datum : Datum} (later : w.Precedes v) (present : w.HasScopes datum) :
    v.HasScopes datum :=
  Form.AllParts.mono (fun _ inside scope mem => HasScope.mono later (inside scope mem)) datum present

mutual

theorem sustains_load : ∀ {w : World} (datum : Datum), w.HasScopes datum → w.Sustains Knows (load datum)
  | w, .seq _ kind items, present => by
      rw [load]
      have inside := (Form.allParts_iff.1 present).2
      exact (sustains_loadItems items inside).bind fun _ _ known => sustains_newSeq kind known
  | w, .map _ entries, present => by
      rw [load]
      have inside := List.forall_mem_map.1 (Form.allParts_iff.1 present).2
      exact (sustains_loadEntries entries inside).bind fun _ _ known => sustains_newMap known
  | w, .fn _ params body scope isMacro, present => by
      rw [load]
      obtain ⟨inside, inParams, inBody⟩ := present
      refine (sustains_load params inParams).bind fun params later knownParams => ?_
      refine (sustains_load body (HasScopes.mono later inBody)).bind fun body later' knownBody => ?_
      exact sustains_newFn isMacro (knownParams.mono later') knownBody
        (HasScope.mono later' (HasScope.mono later (inside scope rfl)))
  | w, .native operation, present => by
      rw [load]
      have inside (scope : ScopeId) (mem : scope ∈ (Form.native operation : Value).scope?) :
          w.HasScope scope := by
        cases operation with
        | core op => cases mem
        | host name own => exact (Form.allParts_iff.1 present).1 scope mem
      exact sustains_pure (knows_iff.2 ⟨⟨nofun, inside⟩, nofun⟩)
  | w, .nil, _ | w, .bool _, _ | w, .number _, _ | w, .string _, _ | w, .keyword _, _
  | w, .symbol _, _ => by
      rw [load]
      exact sustains_pure (knows_of_atom rfl rfl rfl)

theorem sustains_loadItems : ∀ {w : World} (data : List Datum), (∀ datum ∈ data, w.HasScopes datum) →
    w.Sustains KnowsAll (loadItems data)
  | w, [], _ => by
      rw [loadItems]
      exact sustains_pure knowsAll_nil
  | w, datum :: data, present => by
      rw [loadItems]
      obtain ⟨first, others⟩ := List.forall_mem_cons.1 present
      refine (sustains_load datum first).bind fun value later known => ?_
      refine (sustains_loadItems data fun other mem => HasScopes.mono later (others other mem)).bind
        fun values later' knownAll => ?_
      exact sustains_pure (List.forall_mem_cons.2 ⟨known.mono later', knownAll⟩)

theorem sustains_loadEntries : ∀ {w : World} (entries : List (MapKey × Datum)),
    (∀ entry ∈ entries, w.HasScopes entry.2) → w.Sustains KnowsEntries (loadEntries entries)
  | w, [], _ => by
      rw [loadEntries]
      exact sustains_pure nofun
  | w, (key, datum) :: entries, present => by
      rw [loadEntries]
      obtain ⟨first, others⟩ := List.forall_mem_cons.1 present
      refine (sustains_load datum first).bind fun value later known => ?_
      refine (sustains_loadEntries entries fun other mem => HasScopes.mono later (others other mem)).bind
        fun values later' knownAll => ?_
      exact sustains_pure (List.forall_mem_cons.2 ⟨known.mono later', knownAll⟩)

end

end Data

section Forms

theorem sustains_bodyForm {forms : List Value} (known : w.KnowsAll forms) :
    w.Sustains Knows (Special.bodyForm forms) := by
  rcases forms with _ | ⟨form, _ | ⟨next, forms⟩⟩
  · exact sustains_pure knows_nil
  · exact sustains_pure (known form List.mem_cons_self)
  · exact sustains_newSeq .list (List.forall_mem_cons.2 ⟨knows_symbol "do", known⟩)

theorem sustains_templateCall (name : String) {args : List Value} (known : w.KnowsAll args) :
    w.Sustains Knows (Template.call name args) :=
  sustains_newSeq .list (List.forall_mem_cons.2 ⟨knows_symbol name, known⟩)

theorem mem_of_unquoted? {items : List Value} {form : Value}
    (unquoted : Template.unquoted? items = some form) : form ∈ items := by
  rcases items with _ | ⟨head, _ | ⟨inner, _ | ⟨extra, others⟩⟩⟩
  · cases unquoted
  · cases unquoted
  · rw [Template.unquoted?] at unquoted
    split at unquoted <;> cases unquoted
    exact List.mem_cons_of_mem head List.mem_cons_self
  · cases unquoted

theorem mem_of_spliced? {item form : Value} (spliced : Template.spliced? item = some form) :
    form ∈ item.parts := by
  cases item with
  | seq label kind items =>
      rcases items with _ | ⟨head, _ | ⟨inner, _ | ⟨extra, others⟩⟩⟩
      · cases spliced
      · cases spliced
      · rw [Template.spliced?] at spliced
        split at spliced <;> cases spliced
        exact List.mem_cons_of_mem head List.mem_cons_self
      · cases spliced
  | _ => cases spliced

mutual

theorem sustains_builder : ∀ {w : World} (template : Value), w.Knows template →
    w.Sustains Knows (Template.builder template)
  | w, .seq label kind items, known => by
      rw [Template.builder]
      split
      · exact sustains_templateCall "quote" (by simpa [KnowsAll] using known)
      · split
        next form unquoted => exact sustains_pure (known.items form (mem_of_unquoted? unquoted))
        next => exact sustains_itemsBuilder items known.items
  | w, .nil, known | w, .bool _, known | w, .number _, known | w, .string _, known
  | w, .keyword _, known | w, .symbol _, known | w, .map _ _, known | w, .native _, known
  | w, .fn _ _ _ _ _, known => sustains_templateCall "quote" (by simpa [KnowsAll] using known)

theorem sustains_itemsBuilder : ∀ {w : World} (items : List Value), w.KnowsAll items →
    w.Sustains Knows (Template.itemsBuilder items)
  | w, [], _ => by
      rw [Template.itemsBuilder]
      refine (sustains_newSeq .list knowsAll_nil).bind fun list _ made => ?_
      exact sustains_templateCall "quote" (by simpa [KnowsAll] using made)
  | w, head :: rest, known => by
      rw [Template.itemsBuilder]
      obtain ⟨first, others⟩ := List.forall_mem_cons.1 known
      split
      next form unquoted => exact sustains_pure (known form (mem_of_unquoted? unquoted))
      next =>
        split
        next form spliced =>
          have knownForm : w.Knows form := first.part (mem_of_spliced? spliced)
          refine (sustains_itemsBuilder rest others).bind fun built later made => ?_
          exact sustains_templateCall "concat" (by simp [KnowsAll, knownForm.mono later, made])
        next =>
          refine (sustains_builder head first).bind fun item later knownItem => ?_
          refine (sustains_itemsBuilder rest (KnowsAll.mono later others)).bind fun built later' made => ?_
          exact sustains_templateCall "cons" (by simp [KnowsAll, knownItem.mono later', made])

end

end Forms

end World

end AnnotatedLisp
