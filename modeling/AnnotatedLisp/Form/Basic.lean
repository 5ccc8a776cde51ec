import AnnotatedLisp.Entries
import AnnotatedLisp.Number.Text

/-!
Forms: the data that programs are made of and compute with.

A form is an atom, a list or vector, a map, a native operation, or a function. The compound ones
carry a label. The reader knows no labels (`Datum`); in a running program the label is the identity
of the node (`Value`), under which stamps are kept and by which functions are compared.
-/

namespace AnnotatedLisp

abbrev NodeId := Nat

abbrev ScopeId := Nat

inductive MapKey where
  | string (text : String)
  | keyword (name : String)
  deriving DecidableEq

namespace MapKey

/-- All strings come before all keywords; within each, the code points decide. -/
protected def compare : MapKey → MapKey → Ordering
  | .string a, .string b => Ord.compare a b
  | .string _, .keyword _ => .lt
  | .keyword _, .string _ => .gt
  | .keyword a, .keyword b => Ord.compare a b

instance : Ord MapKey := ⟨MapKey.compare⟩

theorem compare_string (a b : String) : compare (string a) (string b) = compare a b := rfl

theorem compare_keyword (a b : String) : compare (keyword a) (keyword b) = compare a b := rfl

instance : Std.LawfulEqOrd MapKey where
  compare_self := fun {a} => by
    cases a with
    | string a => exact (compare_string a a).trans Std.ReflOrd.compare_self
    | keyword a => exact (compare_keyword a a).trans Std.ReflOrd.compare_self
  eq_of_compare := fun {a b} h => by
    cases a with
    | string a =>
      cases b with
      | string b => exact congrArg string (Std.LawfulEqOrd.eq_of_compare h)
      | keyword b => cases h
    | keyword a =>
      cases b with
      | string b => cases h
      | keyword b => exact congrArg keyword (Std.LawfulEqOrd.eq_of_compare h)

instance : Std.TransOrd MapKey where
  eq_swap := fun {a b} => by
    cases a with
    | string a =>
      cases b with
      | string b => exact Std.OrientedOrd.eq_swap (a := a) (b := b)
      | keyword b => rfl
    | keyword a =>
      cases b with
      | string b => rfl
      | keyword b => exact Std.OrientedOrd.eq_swap (a := a) (b := b)
  isLE_trans := fun {a b c} hab hbc => by
    cases a with
    | string a =>
      cases c with
      | keyword c => rfl
      | string c =>
        cases b with
        | string b => exact Std.TransOrd.isLE_trans (a := a) (b := b) (c := c) hab hbc
        | keyword b => cases hbc
    | keyword a =>
      cases b with
      | string b => cases hab
      | keyword b =>
        cases c with
        | string c => cases hbc
        | keyword c => exact Std.TransOrd.isLE_trans (a := a) (b := b) (c := c) hab hbc

end MapKey

/-- Lists are calls when they are evaluated, vectors are data. -/
inductive SeqKind where
  | list
  | vector
  deriving DecidableEq

/-- The operations that every program can use. -/
inductive CoreOp where
  | add | subtract | multiply | divide
  | equal | less | greater | lessEqual | greaterEqual | not
  | list | vector | hashMap | cons | concat
  | first | rest | nth | count | isEmpty | isList | isVector
  | symbol | keyword | str | throw
  deriving DecidableEq

/-- A native operation: a core one, or one that the host of the program has put into a scope. -/
inductive Native where
  | core (op : CoreOp)
  | host (name : String) (scope : ScopeId)
  deriving DecidableEq

/-- A form whose compound nodes have labels in `ι`. -/
inductive Form (ι : Type) where
  | nil
  | bool (value : Bool)
  | number (value : Float)
  | string (text : String)
  | keyword (name : String)
  | symbol (name : String)
  | seq (label : ι) (kind : SeqKind) (items : List (Form ι))
  | map (label : ι) (entries : List (MapKey × Form ι))
  | native (operation : Native)
  | fn (label : ι) (params body : Form ι) (scope : ScopeId) (isMacro : Bool)

/-- What the reader produces. -/
abbrev Datum := Form Unit

/-- What a running program works on. -/
abbrev Value := Form NodeId

namespace CoreOp

/-- Every core operation, in the order in which they are listed. -/
def all : List CoreOp :=
  [.add, .subtract, .multiply, .divide,
   .equal, .less, .greater, .lessEqual, .greaterEqual, .not,
   .list, .vector, .hashMap, .cons, .concat,
   .first, .rest, .nth, .count, .isEmpty, .isList, .isVector,
   .symbol, .keyword, .str, .throw]

def name : CoreOp → String
  | add => "+"
  | subtract => "-"
  | multiply => "*"
  | divide => "/"
  | equal => "="
  | less => "<"
  | greater => ">"
  | lessEqual => "<="
  | greaterEqual => ">="
  | not => "not"
  | list => "list"
  | vector => "vector"
  | hashMap => "hash-map"
  | cons => "cons"
  | concat => "concat"
  | first => "first"
  | rest => "rest"
  | nth => "nth"
  | count => "count"
  | isEmpty => "empty?"
  | isList => "list?"
  | isVector => "vector?"
  | symbol => "symbol"
  | keyword => "keyword"
  | str => "str"
  | throw => "throw"

def ofName? (name : String) : Option CoreOp :=
  all.find? fun op => op.name == name

theorem mem_all (op : CoreOp) : op ∈ all := by
  cases op <;> decide

end CoreOp

/-- The name of a native operation, by which it is printed and compared. -/
def Native.name : Native → String
  | .core op => op.name
  | .host name _ => name

def MapKey.toForm {ι : Type} : MapKey → Form ι
  | .string text => .string text
  | .keyword name => .keyword name

namespace Form

variable {ι : Type}

/-- Whether a condition holds of a form: `nil` and `false` are the only forms that do not. -/
def isTruthy : Form ι → Bool
  | nil | bool false => false
  | _ => true

def isList : Form ι → Bool
  | seq _ .list _ => true
  | _ => false

def isVector : Form ι → Bool
  | seq _ .vector _ => true
  | _ => false

def isSymbol (name : String) : Form ι → Bool
  | symbol own => own == name
  | _ => false

theorem isSymbol_iff {name : String} {form : Form ι} :
    form.isSymbol name = true ↔ form = symbol name := by
  cases form <;> simp [isSymbol]

def items? : Form ι → Option (List (Form ι))
  | seq _ _ items => some items
  | _ => none

/-- The items of a list or vector, and none for `nil`. -/
def elements? : Form ι → Option (List (Form ι))
  | nil => some []
  | seq _ _ items => some items
  | _ => none

/-- The form as a map key, if it is a string or a keyword. -/
def key? : Form ι → Option MapKey
  | string text => some (.string text)
  | keyword name => some (.keyword name)
  | _ => none

/-- Keys and values taken in turn, or the first form in the place of a key that is none. A key without
a value at the end does not count. -/
def pairs : List (Form ι) → Except (Form ι) (List (MapKey × Form ι))
  | key :: value :: rest =>
    match key.key? with
    | none => .error key
    | some key => (pairs rest).map fun entries => (key, value) :: entries
  | _ => .ok []

theorem key?_eq_some {form : Form ι} {key : MapKey} (h : form.key? = some key) :
    form = key.toForm := by
  cases form <;> cases h <;> rfl

/-- The keys and values of a map are among the items that it is made of. -/
theorem mem_of_pairs {items : List (Form ι)} {entries : List (MapKey × Form ι)}
    (h : pairs items = .ok entries) : ∀ entry ∈ entries, entry.1.toForm ∈ items ∧ entry.2 ∈ items := by
  induction items using pairs.induct generalizing entries with
  | case1 key value rest none =>
    rw [pairs, none] at h
    cases h
  | case2 key value rest own some ih =>
    rw [pairs, some] at h
    cases read : pairs rest with
    | error form =>
      rw [read] at h
      cases h
    | ok more =>
      rw [read] at h
      cases h
      refine List.forall_mem_cons.2 ⟨⟨?_, ?_⟩, fun entry mem => ?_⟩
      · exact key?_eq_some some ▸ List.mem_cons_self
      · exact List.mem_cons_of_mem _ List.mem_cons_self
      · exact (ih read entry mem).imp (List.mem_cons_of_mem _ <| List.mem_cons_of_mem _ ·)
          (List.mem_cons_of_mem _ <| List.mem_cons_of_mem _ ·)
  | case3 items short =>
    cases items with
    | nil =>
      cases h
      exact nofun
    | cons key rest =>
      cases rest with
      | nil =>
        cases h
        exact nofun
      | cons value rest => exact absurd rfl (short key value rest)

/-- The label of a compound form other than a function. -/
def nodeLabel? : Form ι → Option ι
  | seq label _ _ => some label
  | map label _ => some label
  | _ => none

/-- What a form is called in messages. -/
def kindName : Form ι → String
  | nil => "Nil"
  | bool _ => "Boolean"
  | number _ => "Number"
  | string _ => "String"
  | keyword _ => "Keyword"
  | symbol _ => "Symbol"
  | seq _ .list _ => "List"
  | seq _ .vector _ => "Vector"
  | map _ _ => "Map"
  | native _ => "Function"
  | fn _ _ _ _ false => "Function"
  | fn _ _ _ _ true => "Macro"

end Form

end AnnotatedLisp
