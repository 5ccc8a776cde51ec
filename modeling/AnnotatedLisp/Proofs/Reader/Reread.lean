import AnnotatedLisp.Proofs.Reader.Produced
import AnnotatedLisp.Proofs.Reader.RoundTrip

/-!
What was read can be read again from its text.

The text of a form that was read is always readable. It gives the form again, lists as lists and vectors as
vectors, unless a number was read that is too large for a finite double: this one comes back as a symbol.
-/

namespace AnnotatedLisp

namespace Form

mutual

theorem unlabelled_datum : ∀ form : Datum, unlabelled form = form
  | nil | bool _ | number _ | string _ | keyword _ | symbol _ | native _ => by simp only [unlabelled]
  | seq _ _ items => by rw [unlabelled, itemsUnlabelled_data items]
  | map _ entries => by rw [unlabelled, entriesUnlabelled_data entries]
  | fn _ params body _ _ => by rw [unlabelled, unlabelled_datum params, unlabelled_datum body]

theorem itemsUnlabelled_data : ∀ items : List Datum, itemsUnlabelled items = items
  | [] => by rw [itemsUnlabelled]
  | item :: items => by rw [itemsUnlabelled, unlabelled_datum item, itemsUnlabelled_data items]

theorem entriesUnlabelled_data :
    ∀ entries : List (MapKey × Datum), entriesUnlabelled entries = entries
  | [] => by rw [entriesUnlabelled]
  | (_, value) :: entries => by
      rw [entriesUnlabelled, unlabelled_datum value, entriesUnlabelled_data entries]

end

end Form

namespace Reader

open Form

theorem scan_of_leads {text : List Char} {count : Nat} {form : Datum}
    (h : Leads .oneForm .start text ((State.start.skip count).give form)) :
    scan .oneForm text = .ok [form] := by
  obtain ⟨t, read, awaits⟩ := h
  rw [scan, read]
  change t.finish .oneForm = _
  rw [State.finish, awaits.last]
  rfl

/-- The text of a form that was read is read as the form that it spells. That is the form itself if all
numbers in it are finite, and otherwise it does not even compare equal to the form. -/
theorem read_text_of_read {text : String} {form : Datum} (h : read text = .ok form) :
    read form.text = .ok form.spelled ∧ (form.spelled = form ↔ form.FiniteNumbers) ∧
      ((form.spelled == form) = true ↔ form.FiniteNumbers) := by
  obtain ⟨rest, scanned⟩ := exists_scan_of_read h
  have fits : form.Fits 0 := fits_of_scan scanned form List.mem_cons_self
  have readable : form.spelled.Readable := fits.legible
  have room : State.start.levels.length + form.spelled.nesting < nestingLimit := by
    rw [nesting_spelled]
    exact fits.room
  refine ⟨?_, spelled_eq_iff form, finiteNumbers_of_equal_spelled _ (fun _ => rfl) form, fun finite => ?_⟩
  · have leads : Leads .oneForm .start form.spelled.chars _ :=
      leads_chars form.spelled readable rfl rfl room
    rw [unlabelled_datum, chars_spelled, ← text_toList] at leads
    exact read_of_scan (scan_of_leads leads)
  · have same := (spelled_eq_iff form).2 finite
    rw [same] at readable ⊢
    exact equal_self_of_readable _ form readable

/-- Marks are read back from the lists that they stand for, and of two entries with one key the one that
was kept. -/
theorem read_text_of_marks :
    ∃ form, read "'[~inf {:k () :k x}]" = .ok form ∧ read form.text = .ok form := by
  have read : read "'[~inf {:k () :k x}]" = .ok (.seq () .list [.symbol "quote", .seq () .vector
      [.seq () .list [.symbol "unquote", .symbol "inf"], .map () [(.keyword "k", .symbol "x")]]]) := rfl
  have reread := read_text_of_read read
  refine ⟨_, read, ?_⟩
  rw [reread.2.1.2] at reread
  · exact reread.1
  · simp [FiniteNumbers, ItemsFinite, EntriesFinite]

/-- One and 309 zeros are read as infinity, the text of which is read as a symbol. -/
theorem read_text_of_long_number :
    read (String.ofList ('1' :: List.replicate 309 '0')) =
        .ok (.number (Decimal.toFloat ⟨10 ^ 309, 0⟩)) ∧
      read (Form.text (.number (Decimal.toFloat ⟨10 ^ 309, 0⟩) : Datum)) = .ok (.symbol "inf") := by
  have written : '1' :: List.replicate 309 '0' = Decimal.text ⟨10 ^ 309, 0⟩ := by decide +kernel
  have word : Token.ofWord? ('1' :: List.replicate 309 '0') =
      some (.number (Decimal.toFloat ⟨10 ^ 309, 0⟩)) := by
    rw [Token.ofWord?, written, Number.ofChars?_text]
  have named : Form.text (.number (Decimal.toFloat ⟨10 ^ 309, 0⟩) : Datum) = "inf" := by
    decide +kernel
  have wordChars : ∀ c ∈ '1' :: List.replicate 309 '0', Token.isWordChar c = true := by
    refine List.forall_mem_cons.2 ⟨by decide, fun c zero => ?_⟩
    rw [List.eq_of_mem_replicate zero]
    decide
  constructor
  · have scanned := scan_of_leads (leads_word rfl rfl (List.cons_ne_nil _ _) wordChars word)
    refine @read_of_scan _ _ [] ?_
    rwa [String.toList_ofList]
  · rw [named]
    rfl

end Reader

end AnnotatedLisp
