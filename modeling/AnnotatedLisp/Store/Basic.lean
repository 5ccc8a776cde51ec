import AnnotatedLisp.Error
import Std.Data.TreeMap

/-!
The store: what evaluation changes.

Scopes are shared, so that a definition made in one is seen by every function that was made there; each
is nested in an outer scope that was there before it, or in none. Nodes only have an identity, given
out by counting. Stamps tell what happened at a node, and are kept apart from the nodes.
-/

namespace AnnotatedLisp

/-- The bindings of names that one scope adds to those of the scope around it. -/
structure Scope where
  bindings : Entries String Value
  outer : Option ScopeId

/-- What was recorded at a node: the value it produced, the operation applied there, and the form that
a macro expanded it into. The latest recording of each stays. -/
structure Stamps where
  evaluated : Option Value
  applied : Option Value
  expansion : Option Value

def Stamps.none : Stamps :=
  ⟨.none, .none, .none⟩

/-- The scopes made so far, the identity of the next node, the stamps, and the text written. -/
structure Store where
  scopes : Array Scope
  nextNode : NodeId
  stamps : Std.TreeMap NodeId Stamps
  output : String

namespace Store

def empty : Store :=
  ⟨#[], 0, ∅, ""⟩

/-- Each scope is nested in a scope made before it. -/
def WellFounded (s : Store) : Prop :=
  ∀ (id : ScopeId) (scope : Scope), s.scopes[id]? = some scope →
    ∀ outer ∈ scope.outer, outer < id

/-- The value of a name in the first of at most `fuel` scopes, from `id` outwards, that binds it. -/
def lookupWithin (s : Store) (name : String) : Nat → ScopeId → Option Value
  | 0, _ => none
  | fuel + 1, id =>
    match s.scopes[id]? with
    | none => none
    | some scope =>
      match scope.bindings.find? name with
      | some value => some value
      | none =>
        match scope.outer with
        | some outer => s.lookupWithin name fuel outer
        | none => none

/-- The value of a name in a scope: that of the innermost binding. Scopes are nested in earlier ones,
so a chain from `id` outwards holds at most `id + 1` of them. -/
def lookup (s : Store) (name : String) (id : ScopeId) : Option Value :=
  s.lookupWithin name (id + 1) id

/-- The bindings of at most `fuel` scopes from `id` outwards, inner ones hiding outer ones. -/
def visibleWithin (s : Store) : Nat → ScopeId → Entries String Value
  | 0, _ => []
  | fuel + 1, id =>
    match s.scopes[id]? with
    | none => []
    | some scope =>
      match scope.outer with
      | some outer => Entries.overlay (s.visibleWithin fuel outer) scope.bindings
      | none => scope.bindings

/-- All names that have a value in a scope, in order, with their values. -/
def visible (s : Store) (id : ScopeId) : Entries String Value :=
  s.visibleWithin (id + 1) id

def addScope (s : Store) (outer : Option ScopeId) : ScopeId × Store :=
  (s.scopes.size, { s with scopes := s.scopes.push ⟨[], outer⟩ })

def define (s : Store) (id : ScopeId) (name : String) (value : Value) : Store :=
  { s with
    scopes := s.scopes.modify id fun scope =>
      { scope with bindings := scope.bindings.insert name value } }

def stampsAt (s : Store) (node : NodeId) : Stamps :=
  s.stamps.getD node .none

def stamp (s : Store) (node : NodeId) (change : Stamps → Stamps) : Store :=
  { s with stamps := s.stamps.insert node (change (s.stampsAt node)) }

end Store

end AnnotatedLisp
