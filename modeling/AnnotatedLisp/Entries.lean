/-!
Finite maps as lists of entries in the order of their keys.

Both the maps of the language and the bindings of a scope are kept this way, so listing them needs no
sorting and each key occurs once. Putting in a value changes what is found under its key and nothing
else, and keeps the order.
-/

namespace AnnotatedLisp

/-- Entries in increasing order of their keys. -/
abbrev Entries (κ ν : Type) := List (κ × ν)

namespace Entries

variable {κ ν : Type}

section Insert

variable [Ord κ]

/-- Puts a value under a key, in place of the one that was there. -/
def insert (key : κ) (value : ν) : Entries κ ν → Entries κ ν
  | [] => [(key, value)]
  | entry :: rest =>
    match compare key entry.1 with
    | .lt => (key, value) :: entry :: rest
    | .eq => (key, value) :: rest
    | .gt => entry :: insert key value rest

/-- The entries of both, those of `inner` hiding those of `outer`. -/
def overlay (outer inner : Entries κ ν) : Entries κ ν :=
  inner.foldl (fun entries entry => entries.insert entry.1 entry.2) outer

/-- Entries put in one after the other, so that the last one of a key stays. -/
def ofList (pairs : List (κ × ν)) : Entries κ ν :=
  overlay [] pairs

end Insert

def find? [BEq κ] (key : κ) (entries : Entries κ ν) : Option ν :=
  entries.lookup key

def keys (entries : Entries κ ν) : List κ :=
  entries.map Prod.fst

/-- Each key is smaller than all that follow it. -/
def Sorted [Ord κ] (entries : Entries κ ν) : Prop :=
  entries.Pairwise fun a b => compare a.1 b.1 = .lt

section Lemmas

theorem find?_cons [BEq κ] (key : κ) (entry : κ × ν) (rest : Entries κ ν) :
    find? key (entry :: rest) = if key == entry.1 then some entry.2 else find? key rest := by
  obtain ⟨own, value⟩ := entry
  cases h : key == own <;> simp [find?, List.lookup_cons, h]

theorem mem_of_find? [BEq κ] [LawfulBEq κ] {key : κ} {value : ν} {entries : Entries κ ν}
    (found : find? key entries = some value) : (key, value) ∈ entries := by
  induction entries with
  | nil => cases found
  | cons entry rest ih =>
    rw [find?_cons] at found
    split at found
    next same =>
      cases found
      rw [eq_of_beq same]
      exact List.mem_cons_self
    next => exact List.mem_cons_of_mem _ (ih found)

variable [Ord κ]

theorem find?_insert [DecidableEq κ] [Std.LawfulEqOrd κ] (key other : κ) (value : ν)
    (entries : Entries κ ν) :
    find? other (insert key value entries) =
      if other = key then some value else find? other entries := by
  induction entries with
  | nil => simp [insert, find?_cons]
  | cons entry rest ih =>
    rw [insert]
    split
    · simp [find?_cons]
    next h =>
      have same : key = entry.1 := Std.LawfulEqOrd.eq_of_compare h
      by_cases ho : other = key
      · simp [find?_cons, ho]
      · simp [find?_cons, ← same, ho]
    next h =>
      have differ : key ≠ entry.1 := fun e => by simp [e] at h
      by_cases he : other = entry.1
      · simp [find?_cons, he, Ne.symm differ]
      · simp [find?_cons, he, ih]

theorem mem_insert {key : κ} {value : ν} {entries : Entries κ ν} {entry : κ × ν}
    (h : entry ∈ insert key value entries) : entry = (key, value) ∨ entry ∈ entries := by
  induction entries with
  | nil => simpa [insert] using h
  | cons head rest ih =>
    rw [insert] at h
    split at h
    · simpa using h
    · rcases List.mem_cons.1 h with h | h
      · exact .inl h
      · exact .inr (List.mem_cons_of_mem _ h)
    · rcases List.mem_cons.1 h with h | h
      · exact .inr (by simp [h])
      · exact (ih h).imp_right (List.mem_cons_of_mem _)

theorem mem_overlay {outer inner : Entries κ ν} {entry : κ × ν} (h : entry ∈ overlay outer inner) :
    entry ∈ outer ∨ entry ∈ inner := by
  unfold overlay at h
  induction inner generalizing outer with
  | nil => exact .inl h
  | cons first rest ih =>
    rcases ih h with mem | mem
    · rcases mem_insert mem with rfl | mem
      · exact .inr List.mem_cons_self
      · exact .inl mem
    · exact .inr (List.mem_cons_of_mem _ mem)

theorem mem_ofList {pairs : List (κ × ν)} {entry : κ × ν} (h : entry ∈ ofList pairs) :
    entry ∈ pairs :=
  (mem_overlay h).resolve_left List.not_mem_nil

theorem sorted_nil : Sorted ([] : Entries κ ν) :=
  List.Pairwise.nil

theorem sorted_insert [Std.TransOrd κ] [Std.LawfulEqOrd κ] {key : κ} {value : ν}
    {entries : Entries κ ν} (h : Sorted entries) : Sorted (insert key value entries) := by
  induction entries with
  | nil => simp [insert, Sorted]
  | cons head rest ih =>
    have ⟨below, sorted⟩ := List.pairwise_cons.1 h
    rw [insert]
    split
    next lt =>
      refine List.pairwise_cons.2 ⟨fun entry he => ?_, h⟩
      rcases List.mem_cons.1 he with rfl | he
      · exact lt
      · exact Std.TransCmp.lt_trans lt (below entry he)
    next eq =>
      have same : key = head.1 := Std.LawfulEqOrd.eq_of_compare eq
      exact List.pairwise_cons.2 ⟨fun entry he => same ▸ below entry he, sorted⟩
    next gt =>
      refine List.pairwise_cons.2 ⟨fun entry he => ?_, ih sorted⟩
      rcases mem_insert he with rfl | he
      · exact Std.OrientedCmp.lt_of_gt gt
      · exact below entry he

/-- Each key is there once, so what is found under it is all that is under it. -/
theorem find?_eq_some_iff [BEq κ] [LawfulBEq κ] [Std.LawfulEqOrd κ] {key : κ} {value : ν}
    {entries : Entries κ ν} (h : Sorted entries) :
    find? key entries = some value ↔ (key, value) ∈ entries := by
  refine ⟨mem_of_find?, fun mem => ?_⟩
  induction entries with
  | nil => cases mem
  | cons entry rest ih =>
    have ⟨below, sorted⟩ := List.pairwise_cons.1 h
    rw [find?_cons]
    obtain rfl | mem := List.mem_cons.1 mem
    · rw [if_pos BEq.rfl]
    · have later : compare entry.1 key = .lt := below _ mem
      have differ : ¬(key == entry.1) = true := fun same => by
        rw [eq_of_beq same, Std.ReflOrd.compare_self] at later
        cases later
      rw [if_neg differ, ih sorted mem]

/-- What the inner entries have under a key hides what the outer ones have. -/
theorem find?_overlay_of_sorted [DecidableEq κ] [Std.LawfulEqOrd κ] {inner : Entries κ ν}
    (h : Sorted inner) (outer : Entries κ ν) (key : κ) :
    find? key (overlay outer inner) = (find? key inner).or (find? key outer) := by
  induction inner generalizing outer with
  | nil => rfl
  | cons entry rest ih =>
    have ⟨below, sorted⟩ := List.pairwise_cons.1 h
    have step : overlay outer (entry :: rest) = overlay (insert entry.1 entry.2 outer) rest := rfl
    rw [step, ih sorted, find?_insert, find?_cons]
    by_cases here : key = entry.1
    · have once : find? key rest = none := by
        refine Option.eq_none_iff_forall_ne_some.2 fun value found => ?_
        have later : compare entry.1 key = .lt := below _ (mem_of_find? found)
        rw [here, Std.ReflOrd.compare_self] at later
        cases later
      simp [here, here ▸ once]
    · simp [here]

theorem sorted_overlay [Std.TransOrd κ] [Std.LawfulEqOrd κ] {outer inner : Entries κ ν}
    (h : Sorted outer) : Sorted (overlay outer inner) := by
  unfold overlay
  induction inner generalizing outer with
  | nil => exact h
  | cons entry rest ih => exact ih (sorted_insert h)

theorem sorted_ofList [Std.TransOrd κ] [Std.LawfulEqOrd κ] (pairs : List (κ × ν)) :
    Sorted (ofList pairs) :=
  sorted_overlay sorted_nil

/-- A key that is greater than all others comes last. -/
theorem insert_of_above [Std.OrientedOrd κ] {key : κ} {value : ν} {entries : Entries κ ν}
    (above : ∀ entry ∈ entries, compare entry.1 key = .lt) :
    insert key value entries = entries ++ [(key, value)] := by
  induction entries with
  | nil => rfl
  | cons head rest ih =>
    obtain ⟨first, others⟩ := List.forall_mem_cons.1 above
    rw [insert, Std.OrientedCmp.gt_of_lt first, ih others, List.cons_append]

theorem overlay_of_sorted [Std.OrientedOrd κ] {outer inner : Entries κ ν}
    (h : Sorted (outer ++ inner)) : overlay outer inner = outer ++ inner := by
  induction inner generalizing outer with
  | nil => exact (List.append_nil outer).symm
  | cons entry rest ih =>
    have above : ∀ other ∈ outer, compare other.1 entry.1 = .lt := fun other mem =>
      (List.pairwise_append.1 h).2.2 other mem entry List.mem_cons_self
    have step : overlay outer (entry :: rest) = overlay (insert entry.1 entry.2 outer) rest := rfl
    rw [List.append_cons] at h ⊢
    rw [step, insert_of_above above, ih h]

/-- Entries that are in order already stay as they are. -/
theorem ofList_of_sorted [Std.OrientedOrd κ] {pairs : List (κ × ν)} (h : Sorted pairs) :
    ofList pairs = pairs :=
  overlay_of_sorted h

end Lemmas

end Entries

end AnnotatedLisp
