import AnnotatedLisp.Error

/-!
Worlds: which nodes and scopes there are, and which compound value each node is.

A node is made once and never changes, so that wherever its label occurs it is the label of the same value.
A world knows the values all of whose parts were made in it. What it knows every later world knows as well.
-/

namespace AnnotatedLisp

namespace Form

variable {ι : Type}

/-- The label of a compound form, functions included. -/
def identity? : Form ι → Option ι
  | seq label _ _ => some label
  | map label _ => some label
  | fn label _ _ _ _ => some label
  | _ => none

/-- The scope that a form refers to by itself: that of a function, or the one that an operation of the host
was put into. -/
def scope? : Form ι → Option ScopeId
  | native (.host _ scope) => some scope
  | fn _ _ _ scope _ => some scope
  | _ => none

/-- The forms that a form is immediately made of. -/
def parts : Form ι → List (Form ι)
  | seq _ _ items => items
  | map _ entries => entries.map Prod.snd
  | fn _ params body _ _ => [params, body]
  | _ => []

section Parts

variable (p : Form ι → Prop)

mutual

/-- It holds of the form and of all forms in it. -/
def AllParts : Form ι → Prop
  | seq label kind items => p (seq label kind items) ∧ ItemsAll items
  | map label entries => p (map label entries) ∧ EntriesAll entries
  | fn label params body scope isMacro =>
    p (fn label params body scope isMacro) ∧ AllParts params ∧ AllParts body
  | form => p form

def ItemsAll : List (Form ι) → Prop
  | [] => True
  | item :: items => AllParts item ∧ ItemsAll items

def EntriesAll : List (MapKey × Form ι) → Prop
  | [] => True
  | (_, value) :: entries => AllParts value ∧ EntriesAll entries

end

variable {p}

theorem itemsAll_iff {items : List (Form ι)} :
    ItemsAll p items ↔ ∀ item ∈ items, item.AllParts p := by
  induction items with
  | nil => simp [ItemsAll]
  | cons item items ih => simp [ItemsAll, ih]

theorem entriesAll_iff {entries : List (MapKey × Form ι)} :
    EntriesAll p entries ↔ ∀ entry ∈ entries, entry.2.AllParts p := by
  induction entries with
  | nil => simp [EntriesAll]
  | cons entry entries ih => simp [EntriesAll, ih]

theorem allParts_iff {form : Form ι} :
    form.AllParts p ↔ p form ∧ ∀ part ∈ form.parts, part.AllParts p := by
  cases form with
  | seq label kind items => rw [AllParts, itemsAll_iff, parts]
  | map label entries => rw [AllParts, entriesAll_iff, parts, List.forall_mem_map]
  | fn label params body scope isMacro => simp [AllParts, parts]
  | _ => simp [AllParts, parts]

mutual

theorem AllParts.mono {q : Form ι → Prop} (weaker : ∀ form, p form → q form) :
    ∀ form : Form ι, form.AllParts p → form.AllParts q
  | seq label kind items, h => by
      rw [AllParts] at h ⊢
      exact ⟨weaker _ h.1, ItemsAll.mono weaker items h.2⟩
  | map label entries, h => by
      rw [AllParts] at h ⊢
      exact ⟨weaker _ h.1, EntriesAll.mono weaker entries h.2⟩
  | fn label params body scope isMacro, h => by
      rw [AllParts] at h ⊢
      exact ⟨weaker _ h.1, AllParts.mono weaker params h.2.1, AllParts.mono weaker body h.2.2⟩
  | nil, h | bool _, h | number _, h | string _, h | keyword _, h | symbol _, h | native _, h => by
      rw [AllParts] at h ⊢
      exact weaker _ h
      all_goals nofun

theorem ItemsAll.mono {q : Form ι → Prop} (weaker : ∀ form, p form → q form) :
    ∀ items : List (Form ι), ItemsAll p items → ItemsAll q items
  | [], _ => trivial
  | item :: items, h => ⟨AllParts.mono weaker item h.1, ItemsAll.mono weaker items h.2⟩

theorem EntriesAll.mono {q : Form ι → Prop} (weaker : ∀ form, p form → q form) :
    ∀ entries : List (MapKey × Form ι), EntriesAll p entries → EntriesAll q entries
  | [], _ => trivial
  | (_, value) :: entries, h => ⟨AllParts.mono weaker value h.1, EntriesAll.mono weaker entries h.2⟩

end

end Parts

end Form

/-- The nodes and scopes made so far, and the compound value that each node is the node of. -/
structure World where
  value : NodeId → Value
  nodes : NodeId
  scopes : Nat

namespace World

def empty : World :=
  ⟨fun _ => .nil, 0, 0⟩

/-- The value has a node that was made for it, if it has one, and its scope exists, if it has one. -/
structure Made (w : World) (form : Value) : Prop where
  node : ∀ node ∈ form.identity?, node < w.nodes ∧ w.value node = form
  scope : ∀ scope ∈ form.scope?, scope < w.scopes

/-- The value and all its parts were made. -/
def Knows (w : World) (form : Value) : Prop :=
  form.AllParts w.Made

def KnowsError (w : World) : Error → Prop
  | .thrown value => w.Knows value
  | _ => True

/-- The second world has all that the first has, and maybe more. -/
structure Precedes (w v : World) : Prop where
  nodes : w.nodes ≤ v.nodes
  scopes : w.scopes ≤ v.scopes
  value : ∀ node < w.nodes, v.value node = w.value node

/-- The world after one more node was made, for a value. -/
def addNode (w : World) (value : Value) : World :=
  ⟨fun node => if node = w.nodes then value else w.value node, w.nodes + 1, w.scopes⟩

def addScope (w : World) : World :=
  ⟨w.value, w.nodes, w.scopes + 1⟩

variable {w v u : World} {form : Value}

theorem Precedes.refl (w : World) : w.Precedes w :=
  ⟨Nat.le_refl _, Nat.le_refl _, fun _ _ => rfl⟩

theorem Precedes.trans (first : w.Precedes v) (rest : v.Precedes u) : w.Precedes u :=
  ⟨Nat.le_trans first.nodes rest.nodes, Nat.le_trans first.scopes rest.scopes, fun node made =>
    (rest.value node (Nat.lt_of_lt_of_le made first.nodes)).trans (first.value node made)⟩

theorem precedes_addNode (w : World) (value : Value) : w.Precedes (w.addNode value) :=
  ⟨Nat.le_succ _, Nat.le_refl _, fun _ made => if_neg (Nat.ne_of_lt made)⟩

theorem precedes_addScope (w : World) : w.Precedes w.addScope :=
  ⟨Nat.le_refl _, Nat.le_succ _, fun _ _ => rfl⟩

theorem Made.mono (later : w.Precedes v) (made : w.Made form) : v.Made form where
  node node mem :=
    have ⟨below, same⟩ := made.node node mem
    ⟨Nat.lt_of_lt_of_le below later.nodes, (later.value node below).trans same⟩
  scope scope mem := Nat.lt_of_lt_of_le (made.scope scope mem) later.scopes

theorem Knows.mono (later : w.Precedes v) (known : w.Knows form) : v.Knows form :=
  Form.AllParts.mono (fun _ => Made.mono later) form known

theorem knows_iff : w.Knows form ↔ w.Made form ∧ ∀ part ∈ form.parts, w.Knows part :=
  Form.allParts_iff

theorem Knows.part {part : Value} (known : w.Knows form) (mem : part ∈ form.parts) : w.Knows part :=
  (knows_iff.1 known).2 part mem

theorem KnowsError.mono {error : Error} (later : w.Precedes v) (known : w.KnowsError error) :
    v.KnowsError error := by
  cases error with
  | thrown value => exact Knows.mono later known
  | _ => trivial

theorem KnowsError.caught {error : Error} (known : w.KnowsError error) : w.Knows error.caught := by
  cases error with
  | thrown value => exact known
  | _ => exact knows_iff.2 ⟨⟨nofun, nofun⟩, nofun⟩

/-- What has neither a node nor a scope nor parts is known in every world. -/
theorem knows_of_atom (unlabelled : form.identity? = none) (closed : form.scope? = none)
    (whole : form.parts = []) : w.Knows form :=
  knows_iff.2 ⟨⟨by simp [unlabelled], by simp [closed]⟩, by simp [whole]⟩

/-- A value that is made of known parts is known once its node is made for it. -/
theorem knows_addNode (labelled : form.identity? = some w.nodes)
    (inside : ∀ scope ∈ form.scope?, scope < w.scopes) (parts : ∀ part ∈ form.parts, w.Knows part) :
    (w.addNode form).Knows form := by
  refine knows_iff.2 ⟨⟨fun node mem => ?_, inside⟩, fun part mem =>
    (parts part mem).mono (precedes_addNode w form)⟩
  obtain rfl : w.nodes = node := Option.some.inj (labelled.symm.trans mem)
  exact ⟨Nat.lt_succ_self _, if_pos rfl⟩

end World

end AnnotatedLisp
