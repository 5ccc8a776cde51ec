import AnnotatedLisp.Proofs.Number.Comparison
import AnnotatedLisp.Proofs.Reader.Token

/-!
What the text of a form says.

A number that is not finite has no digits: its text is a word that is read as a symbol. So the text of a form
is also the text of the form that has a symbol in the place of each such number, and that is the form that
it can be read as.
-/

namespace AnnotatedLisp

namespace Token

theorem isSymbol_iff (name : String) :
    IsSymbol name ↔ name ≠ "" ∧ name.toList.all isWordChar = true ∧ name ∉ ["nil", "true", "false"] ∧
      Number.looksNumeric name.toList = false :=
  ⟨fun ⟨word, noValue, noNumber⟩ => ⟨word.1, List.all_eq_true.2 word.2, noValue, noNumber⟩,
    fun ⟨inhabited, word, noValue, noNumber⟩ =>
      ⟨⟨inhabited, List.all_eq_true.1 word⟩, noValue, noNumber⟩⟩

instance (name : String) : Decidable (IsSymbol name) :=
  decidable_of_iff _ (isSymbol_iff name).symm

end Token

/-- The texts of the numbers without digits are names of symbols. -/
theorem Number.isSymbol_text {x : Float} (infinite : ¬x.isFinite = true) :
    Token.IsSymbol (Number.text x) := by
  have infinite : ¬x.toModel.unpack.isFinite = true := infinite
  have names : Token.IsSymbol "NaN" ∧ Token.IsSymbol "inf" ∧ Token.IsSymbol "-inf" := by
    decide
  unfold Number.text Number.chars
  cases unpacked : x.toModel.unpack with
  | notANumber => exact names.1
  | infinity sign =>
      cases sign with
      | positive => exact names.2.1
      | negative => exact names.2.2
  | zero sign =>
      rw [unpacked] at infinite
      exact absurd rfl infinite
  | finite sign mantissa exponent positive =>
      rw [unpacked] at infinite
      exact absurd rfl infinite

theorem Number.beq_self {x : Float} (finite : x.isFinite = true) : (x == x) = true := by
  have finite : x.toModel.unpack.isFinite = true := finite
  have number : x.toModel.unpack.isNaN = false := by
    cases unpacked : x.toModel.unpack with
    | notANumber =>
        rw [unpacked] at finite
        cases finite
    | _ => rfl
  exact beq_self_of_not_isNaN number

namespace Form

variable {ι : Type}

mutual

/-- The form with a symbol in the place of each number that has no digits. -/
def spelled : Form ι → Form ι
  | number value => if value.isFinite then number value else symbol (Number.text value)
  | seq label kind items => seq label kind (itemsSpelled items)
  | map label entries => map label (entriesSpelled entries)
  | form => form

def itemsSpelled : List (Form ι) → List (Form ι)
  | [] => []
  | item :: items => spelled item :: itemsSpelled items

def entriesSpelled : List (MapKey × Form ι) → List (MapKey × Form ι)
  | [] => []
  | (key, value) :: entries => (key, spelled value) :: entriesSpelled entries

end

mutual

/-- All numbers in the form are finite. What is in a function is not looked at. -/
def FiniteNumbers : Form ι → Prop
  | number value => value.isFinite = true
  | seq _ _ items => ItemsFinite items
  | map _ entries => EntriesFinite entries
  | _ => True

def ItemsFinite : List (Form ι) → Prop
  | [] => True
  | item :: items => FiniteNumbers item ∧ ItemsFinite items

def EntriesFinite : List (MapKey × Form ι) → Prop
  | [] => True
  | (_, value) :: entries => FiniteNumbers value ∧ EntriesFinite entries

end

mutual

/-- Both have the same text. -/
theorem chars_spelled : ∀ form : Form ι, chars (spelled form) = chars form
  | number value => by
      by_cases finite : value.isFinite = true
      · simp only [spelled, finite, if_true]
      · rw [spelled, if_neg finite, chars, chars, Number.text, String.toList_ofList]
  | seq _ .list items => by simp only [spelled, chars, itemsChars_spelled [] items]
  | seq _ .vector items => by simp only [spelled, chars, itemsChars_spelled [] items]
  | map _ entries => by simp only [spelled, chars, entriesChars_spelled [] entries]
  | nil | bool _ | string _ | keyword _ | symbol _ | native _ | fn _ _ _ _ _ => by simp only [spelled]

theorem itemsChars_spelled (gap : List Char) :
    ∀ items : List (Form ι), itemsChars gap (itemsSpelled items) = itemsChars gap items
  | [] => by rw [itemsSpelled]
  | item :: items => by
      simp only [itemsSpelled, itemsChars, chars_spelled item, itemsChars_spelled [' '] items]

theorem entriesChars_spelled (gap : List Char) : ∀ entries : List (MapKey × Form ι),
    entriesChars gap (entriesSpelled entries) = entriesChars gap entries
  | [] => by rw [entriesSpelled]
  | (_, value) :: entries => by
      simp only [entriesSpelled, entriesChars, chars_spelled value, entriesChars_spelled [' '] entries]

end

theorem text_spelled (form : Form ι) : form.spelled.text = form.text := by
  rw [← String.toList_inj, text_toList, text_toList, chars_spelled]

mutual

theorem nesting_spelled : ∀ form : Form ι, nesting (spelled form) = nesting form
  | number value => by
      by_cases finite : value.isFinite = true <;> simp only [spelled, finite] <;> rfl
  | seq _ _ items => by simp only [spelled, nesting, itemsNesting_spelled items]
  | map _ entries => by simp only [spelled, nesting, entriesNesting_spelled entries]
  | nil | bool _ | string _ | keyword _ | symbol _ | native _ | fn _ _ _ _ _ => by simp only [spelled]

theorem itemsNesting_spelled :
    ∀ items : List (Form ι), itemsNesting (itemsSpelled items) = itemsNesting items
  | [] => by rw [itemsSpelled]
  | item :: items => by
      simp only [itemsSpelled, itemsNesting, nesting_spelled item, itemsNesting_spelled items]

theorem entriesNesting_spelled : ∀ entries : List (MapKey × Form ι),
    entriesNesting (entriesSpelled entries) = entriesNesting entries
  | [] => by rw [entriesSpelled]
  | (_, value) :: entries => by
      simp only [entriesSpelled, entriesNesting, nesting_spelled value, entriesNesting_spelled entries]

end

mutual

/-- A form is what its text says if its numbers are finite, and only then. -/
theorem spelled_eq_iff : ∀ form : Form ι, spelled form = form ↔ FiniteNumbers form
  | number value => by
      by_cases finite : value.isFinite = true <;> simp [spelled, FiniteNumbers, finite]
  | seq _ _ items => by simp [spelled, FiniteNumbers, itemsSpelled_eq_iff items]
  | map _ entries => by simp [spelled, FiniteNumbers, entriesSpelled_eq_iff entries]
  | nil | bool _ | string _ | keyword _ | symbol _ | native _ | fn _ _ _ _ _ => by
      simp [spelled, FiniteNumbers]

theorem itemsSpelled_eq_iff : ∀ items : List (Form ι), itemsSpelled items = items ↔ ItemsFinite items
  | [] => by simp [itemsSpelled, ItemsFinite]
  | item :: items => by
      simp [itemsSpelled, ItemsFinite, spelled_eq_iff item, itemsSpelled_eq_iff items]

theorem entriesSpelled_eq_iff :
    ∀ entries : List (MapKey × Form ι), entriesSpelled entries = entries ↔ EntriesFinite entries
  | [] => by simp [entriesSpelled, EntriesFinite]
  | (_, value) :: entries => by
      simp [entriesSpelled, EntriesFinite, spelled_eq_iff value, entriesSpelled_eq_iff entries]

end

section Equality

variable (same : ι → ι → Bool)

mutual

/-- A symbol does not compare equal to a number. -/
theorem finiteNumbers_of_equal_spelled (apart : ∀ label, same label label = false) :
    ∀ form : Form ι, equal same (spelled form) form = true → FiniteNumbers form
  | number value, h => by
      by_cases finite : value.isFinite = true
      · rwa [FiniteNumbers]
      · simp only [spelled, finite] at h
        cases h
  | seq label _ items, h => by
      simp only [spelled, equal, apart label, Bool.false_or] at h
      rw [FiniteNumbers]
      exact itemsFinite_of_equal_spelled apart items h
  | map label entries, h => by
      simp only [spelled, equal, apart label, Bool.false_or] at h
      rw [FiniteNumbers]
      exact entriesFinite_of_equal_spelled apart entries h
  | nil, _ | bool _, _ | string _, _ | keyword _, _ | symbol _, _ | native _, _ | fn _ _ _ _ _, _ => by
      simp only [FiniteNumbers]

theorem itemsFinite_of_equal_spelled (apart : ∀ label, same label label = false) :
    ∀ items : List (Form ι), equalItems same (itemsSpelled items) items = true → ItemsFinite items
  | [], _ => by simp only [ItemsFinite]
  | item :: items, h => by
      simp only [itemsSpelled, equalItems, Bool.and_eq_true] at h
      rw [ItemsFinite]
      exact ⟨finiteNumbers_of_equal_spelled apart item h.1, itemsFinite_of_equal_spelled apart items h.2⟩

theorem entriesFinite_of_equal_spelled (apart : ∀ label, same label label = false) :
    ∀ entries : List (MapKey × Form ι),
      equalEntries same (entriesSpelled entries) entries = true → EntriesFinite entries
  | [], _ => by simp only [EntriesFinite]
  | (_, value) :: entries, h => by
      simp only [entriesSpelled, equalEntries, Bool.and_eq_true] at h
      rw [EntriesFinite]
      exact ⟨finiteNumbers_of_equal_spelled apart value h.1.2,
        entriesFinite_of_equal_spelled apart entries h.2⟩

end

mutual

/-- Readable data compare equal to themselves. -/
theorem equal_self_of_readable : ∀ form : Form ι, form.Readable → equal same form form = true
  | number value, h => by
      rw [Readable] at h
      rw [equal]
      exact Number.beq_self h
  | seq _ _ items, h => by
      rw [Readable] at h
      rw [equal, equalItems_self_of_readable items h, Bool.or_true]
  | map _ entries, h => by
      rw [Readable] at h
      rw [equal, equalEntries_self_of_readable entries h.2, Bool.or_true]
  | native _, h | fn _ _ _ _ _, h => by
      rw [Readable] at h
      exact h.elim
  | nil, _ | bool _, _ | string _, _ | keyword _, _ | symbol _, _ => by simp [equal]

theorem equalItems_self_of_readable :
    ∀ items : List (Form ι), ItemsReadable items → equalItems same items items = true
  | [], _ => by rw [equalItems]
  | item :: items, h => by
      rw [ItemsReadable] at h
      rw [equalItems, equal_self_of_readable item h.1, equalItems_self_of_readable items h.2]
      rfl

theorem equalEntries_self_of_readable :
    ∀ entries : List (MapKey × Form ι), EntriesReadable entries → equalEntries same entries entries = true
  | [], _ => by rw [equalEntries]
  | (key, value) :: entries, h => by
      rw [EntriesReadable] at h
      rw [equalEntries, equal_self_of_readable value h.2.1, equalEntries_self_of_readable entries h.2.2]
      simp

end

end Equality

/-- The text of the form tells what form it is, except that a symbol stands for each number that is not
finite. -/
def Legible (form : Form ι) : Prop :=
  form.spelled.Readable

theorem itemsReadable_spelled_iff (items : List (Form ι)) :
    ItemsReadable (itemsSpelled items) ↔ ∀ item ∈ items, item.Legible := by
  induction items with
  | nil => simp [itemsSpelled, ItemsReadable]
  | cons item items ih => simp [itemsSpelled, ItemsReadable, ih, Legible]

theorem entriesReadable_spelled_iff (entries : List (MapKey × Form ι)) :
    EntriesReadable (entriesSpelled entries) ↔
      ∀ entry ∈ entries, entry.1.Readable ∧ entry.2.Legible := by
  induction entries with
  | nil => simp [entriesSpelled, EntriesReadable]
  | cons entry entries ih => simp [entriesSpelled, EntriesReadable, ih, Legible, and_assoc]

theorem legible_seq_iff {label : ι} {kind : SeqKind} {items : List (Form ι)} :
    (seq label kind items).Legible ↔ ∀ item ∈ items, item.Legible := by
  rw [Legible, spelled, Readable, itemsReadable_spelled_iff]

theorem sorted_entriesSpelled {entries : List (MapKey × Form ι)} (h : Entries.Sorted entries) :
    Entries.Sorted (entriesSpelled entries) := by
  have mapped : ∀ entries : List (MapKey × Form ι),
      entriesSpelled entries = entries.map fun entry => (entry.1, entry.2.spelled) := by
    intro entries
    induction entries with
    | nil => rw [entriesSpelled, List.map_nil]
    | cons entry entries ih => rw [entriesSpelled, ih, List.map_cons]
  rw [mapped]
  exact List.pairwise_map.2 h

theorem legible_map {label : ι} {entries : List (MapKey × Form ι)} (sorted : Entries.Sorted entries)
    (legible : ∀ entry ∈ entries, entry.1.Readable ∧ entry.2.Legible) : (map label entries).Legible := by
  rw [Legible, spelled, Readable]
  exact ⟨sorted_entriesSpelled sorted, (entriesReadable_spelled_iff entries).2 legible⟩

theorem itemsNesting_le_iff {items : List (Form ι)} {n : Nat} :
    itemsNesting items ≤ n ↔ ∀ item ∈ items, item.nesting ≤ n := by
  induction items with
  | nil => simp [itemsNesting]
  | cons item items ih => simp [itemsNesting, ih]

theorem entriesNesting_le_iff {entries : List (MapKey × Form ι)} {n : Nat} :
    entriesNesting entries ≤ n ↔ ∀ entry ∈ entries, entry.2.nesting ≤ n := by
  induction entries with
  | nil => simp [entriesNesting]
  | cons entry entries ih => simp [entriesNesting, ih]

end Form

end AnnotatedLisp
