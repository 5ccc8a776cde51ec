import AnnotatedLisp.Proofs.Computation
import AnnotatedLisp.Proofs.Confinement
import AnnotatedLisp.Proofs.Params.Match

/-!
Binding does what the parameters say.

Parameters are bound exactly if they take the arguments, and the names they give are then in the scope.
Otherwise the error tells the first place that does not match, and the names up to there are in the scope.
-/

namespace AnnotatedLisp

namespace Store

/-- The store with names given in a scope and nodes counted up to `next`. -/
def naming (s : Store) (scope : ScopeId) (named : List (String × Value)) (next : NodeId) : Store :=
  { s with
    scopes := s.scopes.modify scope fun frame =>
      { frame with bindings := frame.bindings.overlay named }
    nextNode := next }

/-- Names were given in the scope, in this order, so that the last value of a name stays. No other scope
and no other name changed. -/
structure Named (scope : ScopeId) (named : List (String × Value)) (s t : Store) : Prop where
  own : ∀ frame : Scope, s.scopes[scope]? = some frame →
    ∃ frame' : Scope, t.scopes[scope]? = some frame' ∧ frame'.outer = frame.outer ∧
      ∀ name, frame'.bindings.find? name = (named.reverse.lookup name).or (frame.bindings.find? name)
  others : ∀ id, id ≠ scope → t.scopes[id]? = s.scopes[id]?
  size : t.scopes.size = s.scopes.size
  stamps : t.stamps = s.stamps
  output : t.output = s.output

end Store

/-- Of the values that are put in under a name the last one is found. -/
theorem Entries.find?_overlay {ν : Type} (outer : Entries String ν) (inner : List (String × ν))
    (name : String) :
    (outer.overlay inner).find? name = (inner.reverse.lookup name).or (outer.find? name) := by
  induction inner generalizing outer with
  | nil => rfl
  | cons entry inner ih =>
      have step : outer.overlay (entry :: inner) = (outer.insert entry.1 entry.2).overlay inner := rfl
      rw [step, ih, find?_insert, List.reverse_cons, List.lookup_append, Option.or_assoc]
      have first : [entry].lookup name = if name = entry.1 then some entry.2 else none := by
        obtain ⟨own, value⟩ := entry
        rw [List.lookup_cons, List.lookup_nil]
        by_cases same : name = own
        · simp [same]
        · simp [same, beq_false_of_ne same]
      rw [first]
      split <;> simp

namespace Store

variable {s : Store} {scope : ScopeId} {named named' : List (String × Value)} {next next' : NodeId}

theorem getElem?_naming (id : ScopeId) :
    (s.naming scope named next).scopes[id]? =
      if scope = id then
        s.scopes[id]?.map fun frame => { frame with bindings := frame.bindings.overlay named }
      else s.scopes[id]? := by
  simp only [naming, Array.getElem?_modify]

theorem named_naming : s.Named scope named (s.naming scope named next) := by
  refine ⟨fun frame here => ?_, fun id other => ?_, by simp [naming], rfl, rfl⟩
  · rw [getElem?_naming, if_pos rfl, here]
    exact ⟨_, rfl, rfl, Entries.find?_overlay frame.bindings named⟩
  · rw [getElem?_naming, if_neg (Ne.symm other)]

theorem naming_nil : s.naming scope [] next = { s with nextNode := next } := by
  have same : (s.naming scope [] next).scopes = s.scopes := by
    refine Array.ext_getElem? fun id => ?_
    rw [getElem?_naming]
    split
    · exact Option.map_id_fun' ▸ rfl
    · rfl
  exact congrArg (fun scopes => { s with scopes, nextNode := next }) same

theorem naming_naming :
    (s.naming scope named next).naming scope named' next' = s.naming scope (named ++ named') next' := by
  have same : ((s.naming scope named next).naming scope named' next').scopes =
      (s.naming scope (named ++ named') next').scopes := by
    refine Array.ext_getElem? fun id => ?_
    rw [getElem?_naming, getElem?_naming, getElem?_naming]
    split
    · rw [Option.map_map]
      refine congrArg (Option.map · _) (funext fun frame => ?_)
      simp only [Function.comp, Entries.overlay, List.foldl_append]
    · rfl
  exact congrArg (fun scopes => { s with scopes, nextNode := next' }) same

end Store

namespace Params

open Eval

variable {scope : ScopeId}

section Equations

variable {param value item last : Value} {params items : List Value}

theorem bind_of_elements {label : NodeId} {kind : SeqKind} (elements : value.elements? = some items) :
    bind scope (.seq label kind params) value =
      (Eval.ofExcept (check params items.length) >>= fun _ => bindItems scope params items) := by
  rw [bind, elements]

theorem bindItems_cons (plain : param ≠ .symbol restMarker) :
    bindItems scope (param :: params) (item :: items) =
      (bind scope param item >>= fun _ => bindItems scope params items) := by
  rw [bindItems.eq_def]
  dsimp only
  rw [if_neg (mt Form.isSymbol_iff.1 plain)]

theorem bindItems_rest :
    bindItems scope [.symbol restMarker, last] items = (newList items >>= bind scope last) := by
  rw [bindItems.eq_def]
  dsimp only
  rw [if_pos (Form.isSymbol_iff.2 rfl)]

end Equations

mutual

/-- A parameter that takes a value gives its names. The induction is on what it takes. -/
theorem bind_of_takes {n n' : NodeId} {param value : Value} {named : List (String × Value)} :
    Takes n param value named n' → ∀ {s : Store}, s.nextNode = n →
      bind scope param value s = .ok () (s.naming scope named n')
  | .symbol, s, here => by
      subst here
      rw [bind]
      rfl
  | .seq elements each, s, here => by
      rw [bind_of_elements elements, check_of_fits each.fits]
      exact bindItems_of_takes each here

theorem bindItems_of_takes {n n' : NodeId} {params items : List Value}
    {named : List (String × Value)} : TakesItems n params items named n' →
      ∀ {s : Store}, s.nextNode = n →
        bindItems scope params items s = .ok () (s.naming scope named n')
  | .nil, s, here => by
      subst here
      rw [bindItems, Store.naming_nil]
      rfl
  | .cons plain first others, s, here => by
      rw [bindItems_cons plain, bind_of_ok (bind_of_takes first here), bindItems_of_takes others rfl,
        Store.naming_naming]
  | .rest remaining, s, here => by
      subst here
      rw [bindItems_rest]
      exact bind_of_takes remaining (s := { s with nextNode := s.nextNode + 1 }) rfl

end

mutual

/-- A parameter that refuses a value gives the names up to there and raises the error. -/
theorem bind_of_refuses {n n' : NodeId} {param value : Value} {named : List (String × Value)}
    {error : Error} : Refuses n param value named n' error → ∀ {s : Store}, s.nextNode = n →
      bind scope param value s = .error (.error error) (s.naming scope named n')
  | .param noSymbol noSeq, s, here => by
      subst here
      rw [bind.eq_3 _ _ _ noSymbol fun _ _ _ same => by simp [same, Form.items?] at noSeq,
        Store.naming_nil]
      rfl
  | .value unlisted, s, here => by
      subst here
      rw [bind, unlisted, Store.naming_nil]
      rfl
  | .count elements misfits, s, here => by
      subst here
      rw [bind_of_elements elements, check_of_misfits misfits, Store.naming_nil]
      rfl
  | .seq elements fits one, s, here => by
      rw [bind_of_elements elements, check_of_fits fits]
      exact bindItems_of_refuses one here

theorem bindItems_of_refuses {n n' : NodeId} {params items : List Value}
    {named : List (String × Value)} {error : Error} : RefusesItems n params items named n' error →
      ∀ {s : Store}, s.nextNode = n →
        bindItems scope params items s = .error (.error error) (s.naming scope named n')
  | .here plain first, s, here => by
      rw [bindItems_cons plain, bind_of_error (bind_of_refuses first here)]
  | .later plain first others, s, here => by
      rw [bindItems_cons plain, bind_of_ok (bind_of_takes first here), bindItems_of_refuses others rfl,
        Store.naming_naming]
  | .rest remaining, s, here => by
      subst here
      rw [bindItems_rest]
      exact bind_of_refuses remaining (s := { s with nextNode := s.nextNode + 1 }) rfl

end

section Arguments

variable {params : Value} {args : List Value} {named : List (String × Value)} {next : NodeId} {s : Store}

theorem bindAll_of_takes (h : TakesAll s.nextNode params args named next) :
    bindAll scope params args s = .ok () (s.naming scope named next) := by
  cases h with
  | symbol => rfl
  | seq each =>
      rw [bindAll, check_of_fits each.fits]
      exact bindItems_of_takes each rfl

theorem bindAll_of_refuses {error : Error} (h : RefusesAll s.nextNode params args named next error) :
    bindAll scope params args s = .error (.error error) (s.naming scope named next) := by
  cases h with
  | params noSymbol noSeq =>
      rw [bindAll.eq_3 _ _ _ noSymbol fun _ _ _ same => by simp [same, Form.items?] at noSeq,
        Store.naming_nil]
      rfl
  | count misfits =>
      rw [bindAll, check_of_misfits misfits, Store.naming_nil]
      rfl
  | seq fits one =>
      rw [bindAll, check_of_fits fits]
      exact bindItems_of_refuses one rfl

end Arguments

theorem bind_ok_or_error (scope : ScopeId) (param value : Value) (s : Store) :
    (∃ t, bind scope param value s = .ok () t) ∨
      ∃ error t, bind scope param value s = .error (.error error) t := by
  obtain ⟨named, next, takes⟩ | ⟨named, next, error, refuses⟩ := takes_or_refuses param s.nextNode value
  · exact .inl ⟨_, bind_of_takes takes rfl⟩
  · exact .inr ⟨_, _, bind_of_refuses refuses rfl⟩

/-- A call with one argument binds it to its one parameter. -/
theorem newScope_single {spec value : Value} (single : spec ≠ .symbol restMarker) (outer : ScopeId)
    (label : NodeId) (kind : SeqKind) (s : Store) :
    newScope outer (.seq label kind [spec]) [value] s =
      (bind s.scopes.size spec value >>= fun _ => pure s.scopes.size) (s.addScope (some outer)).2 := by
  have fits : Fits [spec] [value].length := @Fits.all [spec] (by simpa [Plain] using single)
  rw [newScope, bind_of_ok (newScope_apply outer s), bindAll, check_of_fits fits, bindItems_cons single,
    bindItems]
  change ((bind s.scopes.size spec value >>= fun _ => pure ()) >>= fun _ => pure s.scopes.size) _ = _
  rw [bind_assoc]
  rfl

/-- Parameters are bound exactly if they take the arguments, and fail with an error exactly if they refuse
them with that error. In both cases the names that were given are found in the scope, the last value of a
name for each, and nothing else is different; these are all names in the parameters, or the first ones. -/
theorem bindAll_iff (scope : ScopeId) (params : Value) (args : List Value) (s : Store) :
    (∀ t, bindAll scope params args s = .ok () t ↔
      ∃ named next, TakesAll s.nextNode params args named next ∧
        named.map Prod.fst = symbols params ∧ t = s.naming scope named next) ∧
    (∀ stop t, bindAll scope params args s = .error stop t ↔
      ∃ named next error, RefusesAll s.nextNode params args named next error ∧
        named.map Prod.fst <+: symbols params ∧ stop = .error error ∧ t = s.naming scope named next) ∧
    ∀ named next, Store.Named scope named s (s.naming scope named next) := by
  refine ⟨fun t => ⟨fun bound => ?_, ?_⟩, fun stop t => ⟨fun failed => ?_, ?_⟩, fun _ _ =>
    Store.named_naming⟩
  · obtain ⟨named, next, takes⟩ | ⟨named, next, error, refuses⟩ :=
      takesAll_or_refusesAll s.nextNode params args
    · rw [bindAll_of_takes takes] at bound
      cases bound
      exact ⟨named, next, takes, symbols_of_takesAll takes, rfl⟩
    · rw [bindAll_of_refuses refuses] at bound
      cases bound
  · rintro ⟨named, next, takes, _, rfl⟩
    exact bindAll_of_takes takes
  · obtain ⟨named, next, takes⟩ | ⟨named, next, error, refuses⟩ :=
      takesAll_or_refusesAll s.nextNode params args
    · rw [bindAll_of_takes takes] at failed
      cases failed
    · rw [bindAll_of_refuses refuses] at failed
      cases failed
      exact ⟨named, next, error, refuses, symbols_of_refusesAll refuses, rfl, rfl⟩
  · rintro ⟨named, next, error, refuses, _, rfl, rfl⟩
    exact bindAll_of_refuses refuses

end Params

end AnnotatedLisp
