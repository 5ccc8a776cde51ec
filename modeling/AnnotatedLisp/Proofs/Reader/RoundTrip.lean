import AnnotatedLisp.Proofs.Reader.Printed

/-!
Printed data is read back.

The text of a readable form is read as the form without its labels. It takes as many levels of the reader as
lists, vectors and maps are nested in the form, and is refused if these are more than the reader allows.
-/

namespace AnnotatedLisp

namespace Form

open Reader Reader.State

variable {ι : Type}

/-- Entries as the keys and values that they are read from. -/
def flat (entries : List (MapKey × Datum)) : List Datum :=
  entries.flatMap fun entry => [entry.1.toForm, entry.2]

theorem flat_cons (key : MapKey) (value : Datum) (entries : List (MapKey × Datum)) :
    flat ((key, value) :: entries) = key.toForm :: value :: flat entries := rfl

theorem pairs_flat (entries : List (MapKey × Datum)) : pairs (flat entries) = .ok entries := by
  induction entries with
  | nil => rfl
  | cons entry entries ih =>
      obtain ⟨key, value⟩ := entry
      have own : (key.toForm : Datum).key? = some key := by cases key <;> rfl
      rw [flat_cons, pairs, own]
      dsimp only
      rw [ih]
      rfl

theorem length_flat (entries : List (MapKey × Datum)) :
    (flat entries).length = 2 * entries.length := by
  induction entries with
  | nil => rfl
  | cons entry entries ih =>
      rw [flat_cons, List.length_cons, List.length_cons, ih, List.length_cons, Nat.mul_add]

theorem mapOf_flat {entries : List (MapKey × Datum)} (sorted : Entries.Sorted entries) :
    mapOf (flat entries) = .ok (.map () entries) := by
  have even : ¬(flat entries).length % 2 = 1 := by rw [length_flat]; omega
  rw [mapOf, if_neg even, pairs_flat]
  dsimp only
  rw [Entries.ofList_of_sorted sorted]

theorem entriesUnlabelled_eq (entries : List (MapKey × Form ι)) :
    entriesUnlabelled entries = entries.map fun entry => (entry.1, entry.2.unlabelled) := by
  induction entries with
  | nil => rfl
  | cons entry entries ih => rw [entriesUnlabelled, ih, List.map_cons]

theorem sorted_entriesUnlabelled {entries : List (MapKey × Form ι)} (h : Entries.Sorted entries) :
    Entries.Sorted (entriesUnlabelled entries) := by
  rw [entriesUnlabelled_eq]
  exact List.pairwise_map.2 h

theorem entriesChars_cons (gap : List Char) (key : MapKey) (value : Form ι)
    (entries : List (MapKey × Form ι)) :
    entriesChars gap ((key, value) :: entries) =
      gap ++ (key.chars ++ [' ']) ++ (chars value ++ entriesChars [' '] entries) := by
  rw [entriesChars, List.append_assoc, List.append_assoc]
  rfl

theorem head_itemsChars (items : List (Form ι)) :
    ∀ c ∈ (itemsChars [' '] items).head?, Token.isWordChar c = false := by
  cases items with
  | nil => exact nofun
  | cons item items =>
      rintro c ⟨⟩
      decide

theorem head_entriesChars (entries : List (MapKey × Form ι)) :
    ∀ c ∈ (entriesChars [' '] entries).head?, Token.isWordChar c = false := by
  cases entries with
  | nil => exact nofun
  | cons entry entries =>
      rintro c ⟨⟩
      decide

section Success

variable {extent : Extent}

theorem leads_key {s : State} (blank : s.mode = .blank) (unfinished : s.isComplete extent = false) :
    ∀ {key : MapKey}, key.Readable →
      Leads extent s key.chars ((s.skip key.chars.length).give key.toForm)
  | .string text, _ => .of_run (run_string blank unfinished text)
  | .keyword _, word => leads_keyword blank unfinished word

/-- A space, or nothing, in front of an item. -/
theorem run_gap {gap : List Char} (isGap : gap = [] ∨ gap = [' ']) {s : State}
    (blank : s.mode = .blank) : run extent s gap = .ok (s.skip gap.length) := by
  rcases isGap with rfl | rfl
  · rfl
  · obtain ⟨offset, mode, levels, forms⟩ := s
    obtain rfl : mode = .blank := blank
    rfl

/-- The key of an entry and the space behind it. -/
theorem run_key {gap : List Char} {opening : Opening} {before : List Datum} {s : State} {key : MapKey}
    (readable : key.Readable) (isGap : gap = [] ∨ gap = [' '])
    (bracket : ∀ name, opening ≠ .mark name) :
    run extent (s.within opening before) (gap ++ (key.chars ++ [' '])) =
      .ok ((s.skip (gap.length + key.chars.length + 1)).within opening (key.toForm :: before)) := by
  have gapped : run extent (s.within opening before) gap =
      .ok ((s.skip gap.length).within opening before) := run_gap isGap rfl
  have keyed := leads_given bracket
    (leads_key rfl (@isComplete_within extent (s.skip gap.length) opening before) readable)
  rw [run_append, gapped, ← skip_skip, ← skip_skip]
  exact (keyed.run_cons (by decide)).trans (run_gap (.inr rfl) rfl)

mutual

/-- The text of a form is read as the form without its labels. The induction is on the form, wherever it is
read, as long as what is open there leaves room for what is nested in it. -/
theorem leads_chars : ∀ (form : Form ι) {s : State}, form.Readable → s.mode = .blank →
    s.isComplete extent = false → s.levels.length + form.nesting < nestingLimit →
    Leads extent s form.chars ((s.skip form.chars.length).give form.unlabelled)
  | nil, s, _, blank, unfinished, _ => by
      rw [chars, unlabelled]
      exact leads_word blank unfinished nofun (List.all_eq_true.1 (by decide)) rfl
  | bool true, s, _, blank, unfinished, _ => by
      rw [chars, unlabelled]
      exact leads_word blank unfinished nofun (List.all_eq_true.1 (by decide)) rfl
  | bool false, s, _, blank, unfinished, _ => by
      rw [chars, unlabelled]
      exact leads_word blank unfinished nofun (List.all_eq_true.1 (by decide)) rfl
  | number value, s, readable, blank, unfinished, _ => by
      have finite : value.isFinite = true := by rwa [Readable] at readable
      rw [chars, unlabelled]
      exact leads_word blank unfinished (Number.chars_ne_nil finite)
        (fun _ => Token.isWordChar_of_mem_chars finite) (Token.ofWord?_chars finite)
  | string text, s, _, blank, unfinished, _ => by
      rw [chars, unlabelled]
      exact .of_run (run_string blank unfinished text)
  | keyword name, s, readable, blank, unfinished, _ => by
      have word : Token.IsWord name := by rwa [Readable] at readable
      rw [chars, unlabelled]
      exact leads_keyword blank unfinished word
  | symbol name, s, readable, blank, unfinished, _ => by
      have own : Token.IsSymbol name := by rwa [Readable] at readable
      rw [chars, unlabelled]
      exact leads_word blank unfinished (by simpa using own.word.1) own.word.2
        (Token.ofWord?_symbol own)
  | seq _ .list items, s, readable, blank, unfinished, room => by
      have readable : ItemsReadable items := by rwa [Readable] at readable
      rw [nesting] at room
      rw [chars, unlabelled]
      refine @leads_compound extent s '(' ')' .round _ _ _ (by omega)
        (step_of_blank blank unfinished (by decide) (by decide))
        (leads_itemsChars items readable (.inl rfl) nofun ?_) (by decide) ?_
      · rw [skip_levels]
        omega
      · simp only [close?, List.reverse_reverse]
  | seq _ .vector items, s, readable, blank, unfinished, room => by
      have readable : ItemsReadable items := by rwa [Readable] at readable
      rw [nesting] at room
      rw [chars, unlabelled]
      refine @leads_compound extent s '[' ']' .square _ _ _ (by omega)
        (step_of_blank blank unfinished (by decide) (by decide))
        (leads_itemsChars items readable (.inl rfl) nofun ?_) (by decide) ?_
      · rw [skip_levels]
        omega
      · simp only [close?, List.reverse_reverse]
  | map _ entries, s, readable, blank, unfinished, room => by
      have readable : Entries.Sorted entries ∧ EntriesReadable entries := by rwa [Readable] at readable
      rw [nesting] at room
      rw [chars, unlabelled]
      refine @leads_compound extent s '\x7b' '\x7d' (.curly (s.offset + 1)) _ _ _ (by omega)
        (step_of_blank blank unfinished (by decide) (by decide))
        (leads_entriesChars entries readable.2 (.inl rfl) nofun ?_) (by decide) ?_
      · rw [skip_levels]
        omega
      · simp only [close?, List.reverse_reverse, mapOf_flat (sorted_entriesUnlabelled readable.1)]
  | native _, _, readable, _, _, _ => by rw [Readable] at readable; exact readable.elim
  | fn _ _ _ _ _, _, readable, _, _, _ => by rw [Readable] at readable; exact readable.elim

theorem leads_itemsChars : ∀ (items : List (Form ι)) {gap : List Char} {opening : Opening}
    {before : List Datum} {s : State}, ItemsReadable items → gap = [] ∨ gap = [' '] →
    (∀ name, opening ≠ .mark name) → s.levels.length + 1 + itemsNesting items < nestingLimit →
    Leads extent (s.within opening before) (itemsChars gap items)
      ((s.skip (itemsChars gap items).length).within opening
        ((itemsUnlabelled items).reverse ++ before))
  | [], gap, opening, before, s, _, _, _, _ => .of_run rfl
  | item :: items, gap, opening, before, s, readable, isGap, bracket, room => by
      rw [ItemsReadable] at readable
      rw [itemsNesting] at room
      have first := leads_given bracket (leads_chars item readable.1 rfl
        (@isComplete_within extent (s.skip gap.length) opening before)
        (by simp only [within_levels, skip_levels, List.length_cons]; omega))
      have rest := @leads_itemsChars items [' '] opening (item.unlabelled :: before)
        ((s.skip gap.length).skip (chars item).length) readable.2 (.inr rfl) bracket
        (by simp only [skip_levels]; omega)
      have gapped : run extent (s.within opening before) gap =
          .ok ((s.skip gap.length).within opening before) := run_gap isGap rfl
      rw [itemsChars, itemsUnlabelled, List.length_append, List.length_append, ← skip_skip,
        ← skip_skip, List.reverse_cons, List.append_assoc]
      exact .prepend gapped (first.append (head_itemsChars items) rest)

theorem leads_entriesChars : ∀ (entries : List (MapKey × Form ι)) {gap : List Char}
    {opening : Opening} {before : List Datum} {s : State}, EntriesReadable entries →
    gap = [] ∨ gap = [' '] → (∀ name, opening ≠ .mark name) →
    s.levels.length + 1 + entriesNesting entries < nestingLimit →
    Leads extent (s.within opening before) (entriesChars gap entries)
      ((s.skip (entriesChars gap entries).length).within opening
        ((flat (entriesUnlabelled entries)).reverse ++ before))
  | [], gap, opening, before, s, _, _, _, _ => .of_run rfl
  | (key, value) :: entries, gap, opening, before, s, readable, isGap, bracket, room => by
      rw [EntriesReadable] at readable
      rw [entriesNesting] at room
      have keyed := @run_key extent gap opening before s key readable.1 isGap bracket
      have first := leads_given bracket (leads_chars value readable.2.1 rfl
        (@isComplete_within extent (s.skip (gap.length + key.chars.length + 1)) opening
          (key.toForm :: before))
        (by simp only [within_levels, skip_levels, List.length_cons]; omega))
      have rest := @leads_entriesChars entries [' '] opening (value.unlabelled :: key.toForm :: before)
        ((s.skip (gap.length + key.chars.length + 1)).skip (chars value).length)
        readable.2.2 (.inr rfl) bracket (by simp only [skip_levels]; omega)
      have reversed : (flat ((key, value.unlabelled) :: entriesUnlabelled entries)).reverse ++ before =
          (flat (entriesUnlabelled entries)).reverse ++ value.unlabelled :: key.toForm :: before := by
        rw [flat_cons]
        simp only [List.reverse_cons, List.append_assoc]
        rfl
      have place : (entriesChars gap ((key, value) :: entries)).length =
          gap.length + key.chars.length + 1 + (chars value).length +
            (entriesChars [' '] entries).length := by
        simp only [entriesChars_cons, List.length_append, List.length_singleton]
        omega
      rw [place, entriesChars_cons, entriesUnlabelled, reversed, ← skip_skip, ← skip_skip]
      exact .prepend keyed (first.append (head_entriesChars entries) rest)

end

end Success

section Refusal

variable {extent : Extent}

mutual

/-- A form that is nested too deeply is refused at the bracket that opens too much. -/
theorem refuses_chars : ∀ (form : Form ι) {s : State}, form.Readable → s.mode = .blank →
    s.isComplete extent = false → s.levels.length < nestingLimit →
    nestingLimit ≤ s.levels.length + form.nesting → Refuses extent s form.chars
  | seq _ .list items, s, readable, blank, unfinished, _, deep => by
      have readable : ItemsReadable items := by rwa [Readable] at readable
      rw [nesting] at deep
      rw [chars]
      refine refuses_compound (step_of_blank blank unfinished (by decide) (by decide)) ?_ [')']
      exact fun room => refuses_itemsChars items readable (.inl rfl) nofun room
        (by rw [skip_levels]; omega)
  | seq _ .vector items, s, readable, blank, unfinished, _, deep => by
      have readable : ItemsReadable items := by rwa [Readable] at readable
      rw [nesting] at deep
      rw [chars]
      refine refuses_compound (step_of_blank blank unfinished (by decide) (by decide)) ?_ [']']
      exact fun room => refuses_itemsChars items readable (.inl rfl) nofun room
        (by rw [skip_levels]; omega)
  | map _ entries, s, readable, blank, unfinished, _, deep => by
      have readable : Entries.Sorted entries ∧ EntriesReadable entries := by rwa [Readable] at readable
      rw [nesting] at deep
      rw [chars]
      refine refuses_compound (step_of_blank blank unfinished (by decide) (by decide)) ?_ ['\x7d']
      exact fun room => refuses_entriesChars entries readable.2 (.inl rfl) nofun room
        (by rw [skip_levels]; omega)
  | nil, _, _, _, _, room, deep | bool _, _, _, _, _, room, deep | number _, _, _, _, _, room, deep
  | string _, _, _, _, _, room, deep | keyword _, _, _, _, _, room, deep
  | symbol _, _, _, _, _, room, deep | native _, _, _, _, _, room, deep
  | fn _ _ _ _ _, _, _, _, _, room, deep => by
      simp only [nesting] at deep
      exact absurd room (Nat.not_lt.2 deep)

theorem refuses_itemsChars : ∀ (items : List (Form ι)) {gap : List Char} {opening : Opening}
    {before : List Datum} {s : State}, ItemsReadable items → gap = [] ∨ gap = [' '] →
    (∀ name, opening ≠ .mark name) → s.levels.length + 1 < nestingLimit →
    nestingLimit ≤ s.levels.length + 1 + itemsNesting items →
    Refuses extent (s.within opening before) (itemsChars gap items)
  | [], gap, opening, before, s, _, _, _, room, deep => by
      rw [itemsNesting] at deep
      omega
  | item :: items, gap, opening, before, s, readable, isGap, bracket, room, deep => by
      rw [ItemsReadable] at readable
      rw [itemsNesting] at deep
      have gapped : run extent (s.within opening before) gap =
          .ok ((s.skip gap.length).within opening before) := run_gap isGap rfl
      have unfinished := @isComplete_within extent (s.skip gap.length) opening before
      rw [itemsChars]
      refine .prepend gapped ?_
      -- The first item that is nested too deeply is where the text is refused.
      by_cases fits : s.levels.length + 1 + item.nesting < nestingLimit
      · have first := leads_given bracket (leads_chars item readable.1 rfl unfinished fits)
        exact .after first (head_itemsChars items)
          (refuses_itemsChars items readable.2 (.inr rfl) bracket room
            (by simp only [skip_levels]; omega))
      · exact (refuses_chars item readable.1 rfl unfinished room (Nat.le_of_not_lt fits)).append _

theorem refuses_entriesChars : ∀ (entries : List (MapKey × Form ι)) {gap : List Char}
    {opening : Opening} {before : List Datum} {s : State}, EntriesReadable entries →
    gap = [] ∨ gap = [' '] → (∀ name, opening ≠ .mark name) →
    s.levels.length + 1 < nestingLimit →
    nestingLimit ≤ s.levels.length + 1 + entriesNesting entries →
    Refuses extent (s.within opening before) (entriesChars gap entries)
  | [], gap, opening, before, s, _, _, _, room, deep => by
      rw [entriesNesting] at deep
      omega
  | (key, value) :: entries, gap, opening, before, s, readable, isGap, bracket, room, deep => by
      rw [EntriesReadable] at readable
      rw [entriesNesting] at deep
      have keyed := @run_key extent gap opening before s key readable.1 isGap bracket
      have unfinished := @isComplete_within extent (s.skip (gap.length + key.chars.length + 1)) opening
        (key.toForm :: before)
      rw [entriesChars_cons]
      refine .prepend keyed ?_
      -- A key is an atom, so only the value can be nested too deeply.
      by_cases fits : s.levels.length + 1 + value.nesting < nestingLimit
      · have first := leads_given bracket (leads_chars value readable.2.1 rfl unfinished fits)
        exact .after first (head_entriesChars entries)
          (refuses_entriesChars entries readable.2.2 (.inr rfl) bracket room
            (by simp only [skip_levels]; omega))
      · exact (refuses_chars value readable.2.1 rfl unfinished room (Nat.le_of_not_lt fits)).append _

end

end Refusal

/-- A readable form is read back from its text, lists as lists and vectors as vectors, if no more than 63 of
them and of maps are nested in it. If more are, the text is refused as nested too deeply. -/
theorem read_text (form : Form ι) (readable : form.Readable) :
    (form.nesting ≤ 63 → read form.text = .ok form.unlabelled) ∧
      (64 ≤ form.nesting →
        ∃ error, read form.text = .error error ∧ error.kind = .tooDeeplyNested) := by
  have unfinished : State.start.isComplete .oneForm = false := rfl
  constructor
  · intro fits
    have room : State.start.levels.length + form.nesting < nestingLimit := by
      rw [nestingLimit, State.start, List.length_nil]
      omega
    obtain ⟨t, read, awaits⟩ := leads_chars form readable rfl unfinished room
    have scanned : scan .oneForm form.text.toList = .ok [form.unlabelled] := by
      rw [text_toList, scan, read]
      change t.finish .oneForm = _
      rw [finish, awaits.last]
      rfl
    rw [Reader.read, scanned]
  · intro deep
    obtain ⟨fault, failed, cause⟩ := refuses_chars form (s := .start) readable rfl unfinished
      (by decide) (by rw [nestingLimit, State.start, List.length_nil]; omega)
    have scanned : scan .oneForm form.text.toList = .error fault := by
      rw [text_toList, scan, failed]
      rfl
    refine ⟨fault.toError form.text.toList, by rw [Reader.read, scanned], ?_⟩
    show fault.kind = _
    rw [Fault.kind, cause]

/-- `(f -2.5 "a\"b" [nil :k] {"s" true :k ()})` is read back, and 64 lists in each other are refused. -/
theorem read_text_of_data :
    read (seq 0 .list [symbol "f", number (-2.5), string "a\"b", seq 1 .vector [nil, keyword "k"],
        map 2 [(.string "s", bool true), (.keyword "k", seq 3 .list [])]] : Value).text =
      .ok (.seq () .list [.symbol "f", .number (-2.5), .string "a\"b",
        .seq () .vector [.nil, .keyword "k"],
        .map () [(.string "s", .bool true), (.keyword "k", .seq () .list [])]]) ∧
    ∃ error, read (Nat.repeat (fun form => seq () .list [form]) 64 nil : Datum).text = .error error ∧
      error.kind = .tooDeeplyNested := by
  have name : Token.IsSymbol "f" := ⟨⟨by decide, List.all_eq_true.1 (by decide)⟩, by decide, by decide⟩
  have word : Token.IsWord "k" := ⟨by decide, List.all_eq_true.1 (by decide)⟩
  have sorted : Entries.Sorted [(MapKey.string "s", (bool true : Value)),
      (.keyword "k", seq 3 .list [])] := by
    simp only [Entries.Sorted, List.pairwise_pair]
    rfl
  refine ⟨(read_text _ ?_).1 ?_, (read_text _ ?_).2 ?_⟩
  · simp only [Readable, ItemsReadable, EntriesReadable, MapKey.Readable, and_true, true_and]
    exact ⟨name, rfl, word, sorted, word⟩
  · decide
  · simp only [Nat.repeat, Readable, ItemsReadable, and_true]
  · simp [Nat.repeat, nesting, itemsNesting]

end Form

end AnnotatedLisp
