import AnnotatedLisp.Proofs.Descent.Forms
import AnnotatedLisp.Proofs.Excerpt

/-!
Whole texts read by the rules.

The rules read a text as it is read character by character. They come to its end after at most as many forms as it
has characters, and where they refuse it there is a whole number of characters in front of the place.
-/

namespace AnnotatedLisp

namespace Reader

open Rule Descent

variable {extent : Extent} {s : State} {text used rest : List Char}

section Offsets

theorem slice?_append (used rest : List Char) :
    slice? (used ++ rest) (ParseError.byteCount used) = some used := by
  induction used with
  | nil => cases rest <;> rfl
  | cons c used ih =>
      have bytes : ParseError.byteCount (c :: used) = c.utf8Size + ParseError.byteCount used := rfl
      obtain ⟨bytes', more⟩ : ∃ bytes', ParseError.byteCount (c :: used) = bytes' + 1 :=
        Nat.exists_eq_add_one.2 (bytes ▸ Nat.add_pos_left c.utf8Size_pos _)
      rw [more, List.cons_append, slice?, if_pos (by omega), ← more, bytes, Nat.add_sub_cancel_left, ih]
      rfl

/-- There is a whole number of characters in front of an end of the text. -/
theorem offset?_append (used rest : List Char) : offset? (used ++ rest) rest = some used.length := by
  rw [offset?, ParseError.byteCount_append, if_pos (Nat.le_add_left _ _), Nat.add_sub_cancel, slice?_append]
  rfl

theorem fault?_append {refusal : Refusal} (split : used ++ refusal.rest = text) :
    refusal.fault? text = some ⟨refusal.cause, used.length⟩ := by
  rw [Refusal.fault?, ← split, offset?_append]
  rfl

/-- Only what is refused at the end of the text lacks its continuation. -/
theorem rest_of_endOfText {refusal : Refusal} (h : refusal.cause = .endOfText) : refusal.rest = [] := by
  unfold Refusal.cause at h
  split at h <;> try cases h
  all_goals
    split at h
    next empty => exact List.isEmpty_iff.1 empty
    · cases h

end Offsets

/-- What follows the one form of a text is left over. -/
theorem scanFrom_trailing {c : Char} (blank : s.mode = .blank) (complete : s.isComplete extent = true)
    (bare : Bare (c :: text)) : scanFrom extent s (c :: text) = .error ⟨.trailing, s.offset⟩ := by
  by_cases semicolon : c = ';'
  · subst semicolon
    rw [bare.misplaced blank, State.misplaced, if_pos complete]
  · refine scanFrom_of_stepError ?_ text
    simp only [State.step, blank, State.stepBlank, bare.not_separator, semicolon, complete]
    rfl

section Outside

variable {offset : Nat} {forms : List Datum}

/-- Where no form is open a form is read that is given as such, or there is a fault. -/
inductive Reads (extent : Extent) (offset : Nat) (forms : List Datum) (text : List Char) :
    Except Refusal (Datum × List Char) → Prop
  | read {form : Datum} (used : List Char) {rest : List Char} (split : used ++ rest = text)
      (scanned : scanFrom extent ⟨offset, .blank, [], forms⟩ text =
        scanFrom extent ⟨offset + used.length, .blank, [], form :: forms⟩ rest) :
      Reads extent offset forms text (.ok (form, rest))
  | failed {refusal : Refusal} (used : List Char) (split : used ++ refusal.rest = text)
      (scanned : scanFrom extent ⟨offset, .blank, [], forms⟩ text =
        .error ⟨refusal.cause, offset + used.length⟩) :
      Reads extent offset forms text (.error refusal)

theorem reads_form (extent : Extent) (offset : Nat) (forms : List Datum)
    (unfinished : State.isComplete ⟨offset, .blank, [], forms⟩ extent = false) (bare : Bare text)
    (inhabited : text ≠ []) : Reads extent offset forms text (Descent.form 0 text) := by
  have follows := tracks_form 0 (s := ⟨offset, .blank, [], forms⟩) rfl unfinished rfl bare
  generalize Descent.form 0 text = outcome at follows
  cases follows with
  | settled settles =>
      cases settles with
      | read used split scanned => exact .read used split scanned
      | failed used final split scanned => exact .failed used split scanned
  | rejected stuck =>
      exact .failed [] rfl (scanFrom_blocked rfl unfinished bare (absurd · inhabited) stuck nofun)

/-- All forms of a text follow the ones that were read before, and are no more than the text has characters. -/
inductive Gathers (offset : Nat) (forms : List Datum) (text : List Char) :
    Option (Except Refusal (List Datum)) → Prop
  | read {more : List Datum} (few : more.length ≤ text.length)
      (scanned : scanFrom .allForms ⟨offset, .blank, [], forms⟩ text = .ok (forms.reverse ++ more)) :
      Gathers offset forms text (some (.ok more))
  | failed {refusal : Refusal} (used : List Char) (split : used ++ refusal.rest = text)
      (scanned : scanFrom .allForms ⟨offset, .blank, [], forms⟩ text =
        .error ⟨refusal.cause, offset + used.length⟩) :
      Gathers offset forms text (some (.error refusal))

/-- What is gathered behind a first form. -/
theorem Gathers.after {first : Datum} {outcome : Option (Except Refusal (List Datum))}
    (h : Gathers (offset + used.length) (first :: forms) rest outcome) (split : used ++ rest = text)
    (shorter : rest.length < text.length)
    (scanned : scanFrom .allForms ⟨offset, .blank, [], forms⟩ text =
      scanFrom .allForms ⟨offset + used.length, .blank, [], first :: forms⟩ rest) :
    Gathers offset forms text (outcome.map fun outcome => outcome.map (first :: ·)) := by
  cases h with
  | @read more few scanned' =>
      refine .read (Nat.lt_of_le_of_lt few shorter) ?_
      rw [scanned, scanned']
      simp
  | failed used' split' scanned' =>
      refine .failed (used ++ used') (by rw [List.append_assoc, split', split]) ?_
      rw [scanned, scanned', List.length_append, Nat.add_assoc]

/-- No more rounds are needed than the text has characters. -/
theorem gathers_collect (rounds : Nat) (bare : Bare text) (enough : text.length ≤ rounds) :
    Gathers offset forms text (collect rounds text) := by
  fun_induction collect rounds text generalizing offset forms with
  | case1 => exact .read (Nat.zero_le _) (by rw [List.append_nil]; rfl)
  | case2 => cases enough
  | case3 rounds text inhabited refusal refused =>
      have reads := reads_form .allForms offset forms rfl bare inhabited
      rw [refused] at reads
      cases reads with
      | failed used split scanned => exact .failed used split scanned
  | case4 rounds text inhabited first rest read ih =>
      have reads := reads_form .allForms offset forms rfl bare inhabited
      have advanced := advances_form 0 text
      rw [read] at reads advanced
      cases reads with
      | read used split scanned =>
        cases advanced with
        | ok left shorter =>
          obtain ⟨gaps, split', bare', passed⟩ := exists_gaps rest
          have left := (afterGaps_suffix rest).length_le
          refine @Gathers.after text (used ++ gaps) _ _ _ _ _ (ih bare' (by omega)) ?_ (by omega) ?_
          · rw [List.append_assoc, split', split]
          · rw [scanned, passed rfl, List.length_append, ← Nat.add_assoc]
            rfl

end Outside

section Texts

/-- The place of a fault is in the text, and it is the end of it if the text only breaks off. -/
structure Fault.Placed (fault : Fault) (text : List Char) : Prop where
  inside : fault.offset ≤ text.length
  last : fault.kind = .incomplete → fault.offset = text.length

theorem Fault.cause_of_incomplete {fault : Fault} (h : fault.kind = .incomplete) :
    fault.cause = .endOfText := by
  unfold Fault.kind at h
  split at h <;> first | assumption | cases h

theorem placed_refusal {refusal : Refusal} (split : used ++ refusal.rest = text) :
    Fault.Placed ⟨refusal.cause, used.length⟩ text := by
  have length : used.length + refusal.rest.length = text.length := by rw [← split, List.length_append]
  refine ⟨length ▸ Nat.le_add_right _ _, fun incomplete => ?_⟩
  rw [← length, rest_of_endOfText (Fault.cause_of_incomplete incomplete)]
  rfl

/-- The gaps at the front of a text are passed over. -/
theorem exists_scan (text : List Char) : ∃ gaps, gaps ++ afterGaps text = text ∧ Bare (afterGaps text) ∧
    ∀ extent, scan extent text = scanFrom extent ⟨gaps.length, .blank, [], []⟩ (afterGaps text) := by
  obtain ⟨gaps, split, bare, passed⟩ := exists_gaps text
  refine ⟨gaps, split, bare, fun extent => ?_⟩
  rw [show scan extent text = scanFrom extent .start text from rfl, passed rfl, State.skip]
  simp only [State.start, Nat.zero_add]

/-- All forms of a text are read as they are character by character. -/
theorem forms?_eq (text : List Char) : forms? text = some (scan .allForms text) ∧
    (∀ forms, scan .allForms text = .ok forms → forms.length ≤ text.length) ∧
    ∀ fault, scan .allForms text = .error fault → fault.Placed text := by
  obtain ⟨gaps, split, bare, scanned⟩ := exists_scan text
  have short := (afterGaps_suffix text).length_le
  have gathers := @gathers_collect _ gaps.length [] text.length bare short
  rw [scanned .allForms, forms?]
  generalize collect text.length (afterGaps text) = outcome at gathers
  cases gathers with
  | @read more few scanned' =>
      refine ⟨congrArg some scanned'.symm, fun forms read => ?_, fun fault failed => ?_⟩
      · rw [scanned'] at read
        cases read
        exact Nat.le_trans few short
      · rw [scanned'] at failed
        cases failed
  | @failed refusal used split' scanned' =>
      rw [← List.length_append] at scanned'
      have split : (gaps ++ used) ++ refusal.rest = text := by rw [List.append_assoc, split', split]
      refine ⟨?_, fun forms read => ?_, fun fault failed => ?_⟩
      · simp only [Option.bind_eq_bind, Option.bind_some, fault?_append split, scanned']
        rfl
      · rw [scanned'] at read
        cases read
      · rw [scanned'] at failed
        cases failed
        exact placed_refusal split

/-- The one form of a text is read as it is character by character. -/
theorem oneForm?_eq (text : String) : ∃ outcome, oneForm? text.toList = some outcome ∧
    Reader.read text = outcome.mapError (fun fault => fault.toError text.toList) ∧
    ∀ fault, outcome = .error fault → fault.Placed text.toList := by
  obtain ⟨gaps, split, bare, scanned⟩ := exists_scan text.toList
  have scanned := scanned .oneForm
  by_cases empty : afterGaps text.toList = []
  · have refused : form 0 (afterGaps text.toList) = .error ⟨false, .mismatch, []⟩ := by
      rw [empty, form_eq]
      rfl
    rw [empty, List.append_nil] at split
    have place : Refusal.fault? text.toList ⟨false, .mismatch, []⟩ = some ⟨.endOfText, text.toList.length⟩ :=
      fault?_append (by rw [List.append_nil])
    refine ⟨.error ⟨.endOfText, text.toList.length⟩, ?_, ?_, ?_⟩
    · rw [oneForm?, refused]
      simp only [place]
      rfl
    · rw [Reader.read, scanned, empty]
      rfl
    · rintro _ ⟨⟩
      exact ⟨Nat.le_refl _, fun _ => rfl⟩
  · have reads := reads_form .oneForm gaps.length [] rfl bare empty
    rw [oneForm?]
    generalize form 0 (afterGaps text.toList) = outcome at reads
    cases reads with
    | @failed refusal used split' scanned' =>
        rw [← List.length_append] at scanned'
        have split : (gaps ++ used) ++ refusal.rest = text.toList := by rw [List.append_assoc, split', split]
        refine ⟨.error ⟨refusal.cause, (gaps ++ used).length⟩, ?_, ?_, ?_⟩
        · simp only [fault?_append split]
          rfl
        · rw [Reader.read, scanned, scanned']
          rfl
        · rintro _ ⟨⟩
          exact placed_refusal split
    | @read form used rest split' scanned' =>
        obtain ⟨gaps', split'', bare', passed⟩ := exists_gaps rest
        have split : (gaps ++ used ++ gaps') ++ afterGaps rest = text.toList := by
          rw [List.append_assoc, split'', List.append_assoc, split', split]
        have left : scan .oneForm text.toList =
            scanFrom .oneForm ⟨(gaps ++ used ++ gaps').length, .blank, [], [form]⟩ (afterGaps rest) := by
          rw [scanned, scanned', passed rfl, List.length_append, List.length_append]
          rfl
        cases after : afterGaps rest with
        | nil =>
            refine ⟨.ok form, by simp only [after], ?_, fun _ wrong => by cases wrong⟩
            rw [Reader.read, left, after]
            rfl
        | cons c last =>
            refine ⟨.error ⟨.trailing, (gaps ++ used ++ gaps').length⟩, ?_, ?_, ?_⟩
            · rw [after] at split
              have place : offset? text.toList (c :: last) = some (gaps ++ used ++ gaps').length := by
                rw [← split, offset?_append]
              simp only [after, place]
              rfl
            · have blocked := @scanFrom_trailing .oneForm
                ⟨(gaps ++ used ++ gaps').length, .blank, [], [form]⟩ last c rfl rfl (after ▸ bare')
              rw [Reader.read, left, after, blocked]
              rfl
            · rintro _ ⟨⟩
              refine ⟨?_, fun kind => by cases kind⟩
              rw [← split]
              simp

/-- Each rule for a token or form either leaves less than it was given, which is an end of it, or refuses what it
was given at a place in it, and what is left behind gaps is an end of it as well. So what is repeated always
reads something. A text is read through after no more forms than it has characters; the characters in front of
any end of a text are counted without fail; and so the place of a fault is in the text, and at its end if the
text only breaks off. By the rules the same is read, and the same errors are told, as character by character. -/
theorem rules_make_progress (text : String) :
    (∀ (kind : Kind) (depth : Nat) (input : List Char), Progress input (kind.rule depth input)) ∧
    (∀ input, afterGaps input <:+ input) ∧
    (∀ input, Progress input (gap input) ∧ Within input (many gap input)) ∧
    (∀ depth input, Progress input (behind afterGaps (form depth) input) ∧
      Within input (many (behind afterGaps (form depth)) input)) ∧
    (∀ rest, rest <:+ text.toList → offset? text.toList rest = some (text.toList.length - rest.length)) ∧
    Descent.readAll text = some (Reader.readAll text) ∧
    Descent.read text = some (Reader.read text) ∧
    (∀ forms, Reader.readAll text = .ok forms → forms.length ≤ text.toList.length) ∧
    ∀ fault, forms? text.toList = some (.error fault) ∨ oneForm? text.toList = some (.error fault) →
      fault.Placed text.toList := by
  have forms := fun depth => (advances_form depth).behind afterGaps_suffix
  obtain ⟨all, few, placed⟩ := forms?_eq text.toList
  obtain ⟨outcome, one, same, placed'⟩ := oneForm?_eq text
  refine ⟨fun kind depth => advances_rule kind depth, afterGaps_suffix,
    fun input => ⟨advances_gap input, advances_gap.many input⟩,
    fun depth input => ⟨forms depth input, (forms depth).many input⟩, ?_, ?_, ?_, ?_, ?_⟩
  · rintro rest ⟨used, split⟩
    rw [← split, offset?_append, List.length_append, Nat.add_sub_cancel]
  · rw [Descent.readAll, all, Reader.readAll]
    cases scan .allForms text.toList <;> rfl
  · rw [Descent.read, one, same]
    rfl
  · intro forms read
    rw [Reader.readAll] at read
    split at read
    next scanned =>
      cases read
      exact few _ scanned
    · cases read
  · rintro fault (failed | failed)
    · rw [all] at failed
      exact placed fault (Option.some.inj failed)
    · rw [one] at failed
      exact placed' fault (Option.some.inj failed)

/-- Two symbols are no more forms than there are characters; behind the first symbol, which takes two bytes, two
characters are counted; and an open list is told at the end of the text. -/
theorem rules_make_progress_of_open_list :
    (∃ forms, Reader.readAll "é x" = .ok forms ∧ forms.length ≤ 3) ∧
    offset? "é (".toList ['('] = some 2 ∧
    ∃ fault, forms? "é (".toList = some (.error fault) ∧ fault.kind = .incomplete ∧ fault.offset = 3 := by
  obtain ⟨-, -, -, -, -, -, -, few, -⟩ := rules_make_progress "é x"
  obtain ⟨-, -, -, -, offsets, -, -, -, placed⟩ := rules_make_progress "é ("
  have read : Reader.readAll "é x" = .ok [.symbol "é", .symbol "x"] := by rfl
  have failed : forms? "é (".toList = some (.error ⟨.endOfText, 3⟩) := (forms?_eq _).1.trans (by rfl)
  exact ⟨⟨_, read, few _ read⟩, offsets _ ⟨['é', ' '], rfl⟩, _, failed, rfl, (placed _ (.inl failed)).last rfl⟩

end Texts

end Reader

end AnnotatedLisp
