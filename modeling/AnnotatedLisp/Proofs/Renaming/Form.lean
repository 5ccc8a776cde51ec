import AnnotatedLisp.Error
import AnnotatedLisp.Form.Equality

/-!
Forms with other labels.

Labels have no part in what a form is: the kind of a form, its items and its text are those of the same form
with other labels. Only equality looks at labels, and sees no difference if different labels stay different.
-/

namespace AnnotatedLisp

namespace Entries

variable {κ ν μ : Type} (f : ν → μ)

theorem lookup_map [BEq κ] (key : κ) (entries : List (κ × ν)) :
    (entries.map (Prod.map id f)).lookup key = (entries.lookup key).map f := by
  induction entries with
  | nil => rfl
  | cons entry entries ih =>
      obtain ⟨own, value⟩ := entry
      rw [List.map_cons, Prod.map_apply, List.lookup_cons, List.lookup_cons]
      cases same : key == own with
      | true => simp [same]
      | false => simpa [same] using ih

theorem find?_map [BEq κ] (key : κ) (entries : Entries κ ν) :
    find? key (entries.map (Prod.map id f)) = (find? key entries).map f :=
  lookup_map f key entries

theorem insert_map [Ord κ] (key : κ) (value : ν) (entries : Entries κ ν) :
    insert key (f value) (entries.map (Prod.map id f)) =
      (insert key value entries).map (Prod.map id f) := by
  induction entries with
  | nil => rfl
  | cons entry entries ih =>
      rw [List.map_cons, insert, insert, Prod.map_fst, id_eq]
      cases compare key entry.1 with
      | lt | eq => rfl
      | gt => exact congrArg (List.cons _) ih

theorem overlay_map [Ord κ] (outer inner : Entries κ ν) :
    overlay (outer.map (Prod.map id f)) (inner.map (Prod.map id f)) =
      (overlay outer inner).map (Prod.map id f) := by
  unfold overlay
  induction inner generalizing outer with
  | nil => rfl
  | cons entry inner ih =>
      rw [List.map_cons, List.foldl_cons, List.foldl_cons, Prod.map_fst, Prod.map_snd, id_eq, insert_map]
      exact ih _

theorem ofList_map [Ord κ] (pairs : List (κ × ν)) :
    ofList (pairs.map (Prod.map id f)) = (ofList pairs).map (Prod.map id f) :=
  overlay_map f [] pairs

end Entries

namespace Form

variable {ι κ : Type}

section Relabelling

variable (f : ι → κ)

mutual

/-- The form with other labels. -/
def relabel : Form ι → Form κ
  | nil => nil
  | bool value => bool value
  | number value => number value
  | string text => string text
  | keyword name => keyword name
  | symbol name => symbol name
  | seq label kind items => seq (f label) kind (itemsRelabel items)
  | map label entries => map (f label) (entriesRelabel entries)
  | native operation => native operation
  | fn label params body scope isMacro => fn (f label) (relabel params) (relabel body) scope isMacro

def itemsRelabel : List (Form ι) → List (Form κ)
  | [] => []
  | item :: items => relabel item :: itemsRelabel items

def entriesRelabel : List (MapKey × Form ι) → List (MapKey × Form κ)
  | [] => []
  | (key, value) :: entries => (key, relabel value) :: entriesRelabel entries

end

theorem itemsRelabel_eq (items : List (Form ι)) : itemsRelabel f items = items.map (relabel f) := by
  induction items with
  | nil => rfl
  | cons item items ih => rw [itemsRelabel, ih, List.map_cons]

theorem entriesRelabel_eq (entries : List (MapKey × Form ι)) :
    entriesRelabel f entries = entries.map (Prod.map id (relabel f)) := by
  induction entries with
  | nil => rfl
  | cons entry entries ih =>
      rw [entriesRelabel, ih, List.map_cons]
      rfl

@[simp] theorem relabel_seq (label : ι) (kind : SeqKind) (items : List (Form ι)) :
    relabel f (seq label kind items) = seq (f label) kind (items.map (relabel f)) := by
  rw [relabel, itemsRelabel_eq]

@[simp] theorem relabel_map (label : ι) (entries : List (MapKey × Form ι)) :
    relabel f (map label entries) = map (f label) (entries.map (Prod.map id (relabel f))) := by
  rw [relabel, entriesRelabel_eq]

mutual

theorem print_relabel (out : String) : ∀ form : Form ι, print out (relabel f form) = print out form
  | nil | bool _ | number _ | string _ | keyword _ | symbol _ | native _ => by
      simp only [relabel, print]
  | fn _ _ _ _ isMacro => by cases isMacro <;> simp only [relabel, print]
  | seq _ kind items => by cases kind <;> simp only [relabel, print, printItems_relabel _ _ items]
  | map _ entries => by simp only [relabel, print, printEntries_relabel _ _ entries]

theorem printItems_relabel (gap out : String) : ∀ items : List (Form ι),
    printItems gap out (itemsRelabel f items) = printItems gap out items
  | [] => by simp only [itemsRelabel, printItems]
  | item :: items => by
      simp only [itemsRelabel, printItems, print_relabel _ item, printItems_relabel _ _ items]

theorem printEntries_relabel (gap out : String) : ∀ entries : List (MapKey × Form ι),
    printEntries gap out (entriesRelabel f entries) = printEntries gap out entries
  | [] => by simp only [entriesRelabel, printEntries]
  | (key, value) :: entries => by
      cases key <;>
        simp only [entriesRelabel, printEntries, print_relabel _ value, printEntries_relabel _ _ entries]

end

@[simp] theorem text_relabel (form : Form ι) : (relabel f form).text = form.text :=
  print_relabel f "" form

@[simp] theorem kindName_relabel (form : Form ι) : (relabel f form).kindName = form.kindName := by
  cases form with
  | seq _ kind _ => cases kind <;> rfl
  | fn _ _ _ _ isMacro => cases isMacro <;> rfl
  | _ => rfl

@[simp] theorem isTruthy_relabel (form : Form ι) : (relabel f form).isTruthy = form.isTruthy := by
  cases form with
  | bool value => cases value <;> rfl
  | _ => rfl

@[simp] theorem isList_relabel (form : Form ι) : (relabel f form).isList = form.isList := by
  cases form with
  | seq _ kind _ => cases kind <;> rfl
  | _ => rfl

@[simp] theorem isVector_relabel (form : Form ι) : (relabel f form).isVector = form.isVector := by
  cases form with
  | seq _ kind _ => cases kind <;> rfl
  | _ => rfl

@[simp] theorem isSymbol_relabel (name : String) (form : Form ι) :
    (relabel f form).isSymbol name = form.isSymbol name := by
  cases form <;> rfl

theorem elements?_relabel (form : Form ι) :
    (relabel f form).elements? = form.elements?.map (List.map (relabel f)) := by
  cases form with
  | seq label kind items => rw [relabel_seq]; rfl
  | _ => rfl

theorem key?_relabel (form : Form ι) : (relabel f form).key? = form.key? := by
  cases form <;> rfl

/-- Pairs of keys and values, or the form in the place of a key, keep their labels apart. -/
theorem pairs_relabel (items : List (Form ι)) :
    pairs (items.map (relabel f)) =
      match pairs items with
      | .ok entries => .ok (entries.map (Prod.map id (relabel f)))
      | .error key => .error (relabel f key) := by
  induction items using pairs.induct with
  | case1 key value rest none =>
      rw [List.map_cons, List.map_cons, pairs, pairs, key?_relabel, none]
  | case2 key value rest own some ih =>
      rw [List.map_cons, List.map_cons, pairs, pairs, key?_relabel, some]
      dsimp only
      rw [ih]
      cases pairs rest <;> rfl
  | case3 items short =>
      rcases items with _ | ⟨key, _ | ⟨value, rest⟩⟩
      · rfl
      · rfl
      · exact absurd rfl (short key value rest)

end Relabelling

section Equality

variable {f : ι → κ} {same : ι → ι → Bool} {same' : κ → κ → Bool}

mutual

/-- If labels are told apart as before, then so are forms. -/
theorem equal_relabel (agree : ∀ a b, same' (f a) (f b) = same a b) :
    ∀ x y : Form ι, equal same' (relabel f x) (relabel f y) = equal same x y
  | seq a _ xs, y => by
      cases y with
      | seq b _ ys => simp only [relabel, equal, agree, equalItems_relabel agree xs ys]
      | _ => simp only [relabel, equal]
  | map a xs, y => by
      cases y with
      | map b ys => simp only [relabel, equal, agree, equalEntries_relabel agree xs ys]
      | _ => simp only [relabel, equal]
  | fn a _ _ _ _, y => by cases y <;> simp only [relabel, equal, agree]
  | nil, y | bool _, y | number _, y | string _, y | keyword _, y | symbol _, y | native _, y => by
      cases y <;> simp only [relabel, equal]

theorem equalItems_relabel (agree : ∀ a b, same' (f a) (f b) = same a b) :
    ∀ xs ys : List (Form ι), equalItems same' (itemsRelabel f xs) (itemsRelabel f ys) =
      equalItems same xs ys
  | [], [] | [], _ :: _ | _ :: _, [] => by simp only [itemsRelabel, equalItems]
  | x :: xs, y :: ys => by
      simp only [itemsRelabel, equalItems, equal_relabel agree x y, equalItems_relabel agree xs ys]

theorem equalEntries_relabel (agree : ∀ a b, same' (f a) (f b) = same a b) :
    ∀ xs ys : List (MapKey × Form ι),
      equalEntries same' (entriesRelabel f xs) (entriesRelabel f ys) = equalEntries same xs ys
  | [], [] | [], _ :: _ | _ :: _, [] => by simp only [entriesRelabel, equalEntries]
  | (j, x) :: xs, (k, y) :: ys => by
      simp only [entriesRelabel, equalEntries, equal_relabel agree x y,
        equalEntries_relabel agree xs ys]

end

end Equality

section Labels

variable (p : ι → Prop)

mutual

/-- It holds of all labels in the form. -/
def AllLabels : Form ι → Prop
  | seq label _ items => p label ∧ ItemsLabels items
  | map label entries => p label ∧ EntriesLabels entries
  | fn label params body _ _ => p label ∧ AllLabels params ∧ AllLabels body
  | _ => True

def ItemsLabels : List (Form ι) → Prop
  | [] => True
  | item :: items => AllLabels item ∧ ItemsLabels items

def EntriesLabels : List (MapKey × Form ι) → Prop
  | [] => True
  | (_, value) :: entries => AllLabels value ∧ EntriesLabels entries

end

variable {p}

section Combining

variable {α : Type} {each : α → ι → Prop}

mutual

/-- What follows from several properties of a label holds of all labels if each of these does. -/
theorem AllLabels.combine (h : ∀ label, (∀ i, each i label) → p label) :
    ∀ form : Form ι, (∀ i, AllLabels (each i) form) → AllLabels p form
  | seq label _ items, all => by
      simp only [AllLabels] at all ⊢
      exact ⟨h label fun i => (all i).1, ItemsLabels.combine h items fun i => (all i).2⟩
  | map label entries, all => by
      simp only [AllLabels] at all ⊢
      exact ⟨h label fun i => (all i).1, EntriesLabels.combine h entries fun i => (all i).2⟩
  | fn label params body _ _, all => by
      simp only [AllLabels] at all ⊢
      exact ⟨h label fun i => (all i).1, AllLabels.combine h params fun i => (all i).2.1,
        AllLabels.combine h body fun i => (all i).2.2⟩
  | nil, _ | bool _, _ | number _, _ | string _, _ | keyword _, _ | symbol _, _ | native _, _ => by
      simp only [AllLabels]

theorem ItemsLabels.combine (h : ∀ label, (∀ i, each i label) → p label) :
    ∀ items : List (Form ι), (∀ i, ItemsLabels (each i) items) → ItemsLabels p items
  | [], _ => by simp only [ItemsLabels]
  | item :: items, all => by
      simp only [ItemsLabels] at all ⊢
      exact ⟨AllLabels.combine h item fun i => (all i).1, ItemsLabels.combine h items fun i => (all i).2⟩

theorem EntriesLabels.combine (h : ∀ label, (∀ i, each i label) → p label) :
    ∀ entries : List (MapKey × Form ι),
      (∀ i, EntriesLabels (each i) entries) → EntriesLabels p entries
  | [], _ => by simp only [EntriesLabels]
  | (_, value) :: entries, all => by
      simp only [EntriesLabels] at all ⊢
      exact ⟨AllLabels.combine h value fun i => (all i).1,
        EntriesLabels.combine h entries fun i => (all i).2⟩

end

end Combining

theorem AllLabels.mono {q : ι → Prop} (weaker : ∀ label, p label → q label) {form : Form ι}
    (h : AllLabels p form) : AllLabels q form :=
  AllLabels.combine (fun label (all : Unit → p label) => weaker label (all ())) form fun _ => h

theorem AllLabels.of_forall (h : ∀ label, p label) (form : Form ι) : AllLabels p form :=
  AllLabels.combine (fun label (_ : Empty → True) => h label) form nofun

variable (f : ι → ι)

mutual

/-- A form stays as it is if its labels do, and only then. -/
theorem relabel_eq_self_iff : ∀ form : Form ι, relabel f form = form ↔ AllLabels (fun a => f a = a) form
  | seq _ _ items => by simp [relabel, AllLabels, itemsRelabel_eq_self_iff items]
  | map _ entries => by simp [relabel, AllLabels, entriesRelabel_eq_self_iff entries]
  | fn _ params body _ _ => by
      simp [relabel, AllLabels, relabel_eq_self_iff params, relabel_eq_self_iff body]
  | nil | bool _ | number _ | string _ | keyword _ | symbol _ | native _ => by
      simp only [relabel, AllLabels]

theorem itemsRelabel_eq_self_iff : ∀ items : List (Form ι),
    itemsRelabel f items = items ↔ ItemsLabels (fun a => f a = a) items
  | [] => by simp only [itemsRelabel, ItemsLabels]
  | item :: items => by
      simp [itemsRelabel, ItemsLabels, relabel_eq_self_iff item, itemsRelabel_eq_self_iff items]

theorem entriesRelabel_eq_self_iff : ∀ entries : List (MapKey × Form ι),
    entriesRelabel f entries = entries ↔ EntriesLabels (fun a => f a = a) entries
  | [] => by simp only [entriesRelabel, EntriesLabels]
  | (_, value) :: entries => by
      simp [entriesRelabel, EntriesLabels, relabel_eq_self_iff value, entriesRelabel_eq_self_iff entries]

end

theorem relabel_of_forall {f : ι → ι} (fixed : ∀ label, f label = label) (form : Form ι) :
    relabel f form = form :=
  (relabel_eq_self_iff f form).2 (.of_forall fixed form)

end Labels

end Form

namespace Error

/-- The error with other labels, which only a thrown value has. -/
def relabel (f : NodeId → NodeId) : Error → Error
  | thrown value => thrown (value.relabel f)
  | error => error

theorem caught_relabel (f : NodeId → NodeId) (error : Error) :
    (error.relabel f).caught = error.caught.relabel f := by
  cases error <;> rfl

/-- The result of a computation with other labels, if `f` is what these make of a value. -/
def relabelResult {α β : Type} (label : NodeId → NodeId) (f : α → β) :
    Except Error α → Except Error β
  | .ok a => .ok (f a)
  | .error error => .error (error.relabel label)

/-- It holds of all labels in what an evaluation ends in. -/
def ResultLabels (p : NodeId → Prop) : Except Error Value → Prop
  | .ok value => value.AllLabels p
  | .error (.thrown value) => value.AllLabels p
  | .error _ => True

theorem ResultLabels.combine {α : Type} {each : α → NodeId → Prop} {p : NodeId → Prop}
    (h : ∀ label, (∀ i, each i label) → p label) {result : Except Error Value}
    (all : ∀ i, ResultLabels (each i) result) : ResultLabels p result := by
  cases result with
  | ok value => exact Form.AllLabels.combine h value all
  | error error =>
      cases error with
      | thrown value => exact Form.AllLabels.combine h value all
      | _ => trivial

theorem relabelResult_eq_self_iff {f : NodeId → NodeId} {result : Except Error Value} :
    relabelResult f (Form.relabel f) result = result ↔ ResultLabels (fun a => f a = a) result := by
  cases result with
  | ok value => simp [relabelResult, ResultLabels, Form.relabel_eq_self_iff]
  | error error =>
      cases error <;> simp [relabelResult, ResultLabels, relabel, Form.relabel_eq_self_iff]

theorem relabelResult_of_forall {f : NodeId → NodeId} (fixed : ∀ label, f label = label)
    (result : Except Error Value) : relabelResult f (Form.relabel f) result = result :=
  relabelResult_eq_self_iff.2 <|
    .combine (fun label (_ : Empty → True) => fixed label) nofun

end Error

end AnnotatedLisp
