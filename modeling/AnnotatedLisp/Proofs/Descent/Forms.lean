import AnnotatedLisp.Proofs.Descent.Tokens

/-!
The rule for forms, and reading character by character.

How many compound forms are open around a form is its depth. If the rule for the forms inside agrees with reading
character by character, so does the rule for the forms around them. As deep as forms can be there are none inside,
and so by induction the rule agrees at each depth.
-/

namespace AnnotatedLisp

namespace Reader

open Rule Descent

variable {extent : Extent} {s : State} {text rest word : List Char} {opening : Opening} {depth : Nat}

/-- Wherever so many compound forms are open, the rule reads what is read from there. -/
def Tracks (depth : Nat) (rule : Rule Datum) : Prop :=
  ∀ {extent : Extent} {s : State} {text : List Char}, s.mode = .blank → s.isComplete extent = false →
    s.levels.length = depth → Bare text → Follows extent s text (rule text)

/-- Inside a form with so many others around it there is a rule for forms, unless that would be too deep. -/
inductive Inside (depth : Nat) : Option (Rule Datum) → Prop
  | full (full : nestingLimit ≤ depth + 1) : Inside depth none
  | room {item : Rule Datum} (room : depth + 1 < nestingLimit) (advances : item.Advances)
      (tracks : Tracks (depth + 1) item) : Inside depth (some item)

/-- What neither begins a form nor closes the innermost one is a fault, and so is the end of the text inside a
form. -/
theorem scanFrom_blocked (blank : s.mode = .blank) (unfinished : s.isComplete extent = false)
    (bare : Bare text) (inside : text = [] → s.levels ≠ [])
    (stuck : ∀ c ∈ text.head?, c ∉ closers → scanFrom extent s text = .error ⟨.unexpected, s.offset⟩)
    (stays : ∀ c ∈ text.head?, ∀ level ∈ s.levels.head?, State.close? c level = none) :
    scanFrom extent s text = .error ⟨(Refusal.mk true .mismatch text).cause, s.offset⟩ := by
  cases text with
  | nil =>
      obtain ⟨level, levels, open_⟩ := List.exists_cons_of_ne_nil (inside rfl)
      obtain ⟨offset, mode, levels', forms⟩ := s
      obtain rfl : mode = .blank := blank
      obtain rfl : levels' = level :: levels := open_
      rfl
  | cons c text =>
      by_cases closer : c ∈ closers
      · have differs : ∀ d, d ∉ closers → c ≠ d := by
          rintro d other rfl
          exact other closer
        have apart : ∀ d ∈ closers, d ∉ openers := by simp [openers, closers]
        exact scanFrom_stuck blank unfinished bare (State.stops_of_closing closer).2 (apart c closer)
          (differs _ (by decide)) (differs _ (by decide)) (stays c rfl)
      · exact stuck c rfl closer

section Items

/-- What is read inside a compound form, up to where no form is read any more. -/
inductive Collects (extent : Extent) (s : State) (opening : Opening) (before : List Datum)
    (text : List Char) : Except Refusal (List Datum × List Char) → Prop
  | read {items : List Datum} (used : List Char) {rest : List Char} (split : used ++ afterGaps rest = text)
      (scanned : scanFrom extent (s.within opening before) text =
        scanFrom extent ((s.skip used.length).within opening (items.reverse ++ before)) (afterGaps rest))
      (stuck : ∀ c ∈ (afterGaps rest).head?, c ∉ closers →
        scanFrom extent ((s.skip used.length).within opening (items.reverse ++ before)) (afterGaps rest) =
          .error ⟨.unexpected, s.offset + used.length⟩) :
      Collects extent s opening before text (.ok (items, rest))
  | failed {refusal : Refusal} (used : List Char) (final : refusal.final = true)
      (split : used ++ refusal.rest = text)
      (scanned : scanFrom extent (s.within opening before) text =
        .error ⟨refusal.cause, s.offset + used.length⟩) :
      Collects extent s opening before text (.error refusal)

/-- What is read behind a first item. -/
theorem Collects.after {before : List Datum} {first : Datum} {used : List Char}
    {outcome : Except Refusal (List Datum × List Char)}
    (h : Collects extent (s.skip used.length) opening (first :: before) rest outcome)
    (split : used ++ rest = text)
    (scanned : scanFrom extent (s.within opening before) text =
      scanFrom extent ((s.skip used.length).within opening (first :: before)) rest) :
    Collects extent s opening before text (outcome.map fun read => (first :: read.1, read.2)) := by
  have place (used' : List Char) :
      (s.skip used.length).offset + used'.length = s.offset + (used ++ used').length := by
    rw [List.length_append, ← Nat.add_assoc]
    rfl
  cases h with
  | @read items used' last split' scanned' stuck =>
      have more : (s.skip used.length).skip used'.length = s.skip (used ++ used').length := by
        rw [State.skip_skip, List.length_append]
      have later : (first :: items).reverse ++ before = items.reverse ++ first :: before := by simp
      rw [more] at scanned' stuck
      rw [place] at stuck
      refine .read (used ++ used') (by rw [List.append_assoc, split', split]) ?_ ?_
      · rw [scanned, scanned', later]
      · rw [later]
        exact stuck
  | failed used' final split' scanned' =>
      refine .failed (used ++ used') final (by rw [List.append_assoc, split', split]) ?_
      rw [scanned, scanned', place]

variable {item : Rule Datum}

/-- The items of a compound form are given one after the other. -/
theorem collects_many (bracket : ∀ name, opening ≠ .mark name) (advances : item.Advances)
    (tracks : Tracks (depth + 1) item) {before : List Datum} (levels : s.levels.length = depth) :
    Collects extent s opening before text (many (behind afterGaps item) text) := by
  have follows {s : State} (text : List Char) (before : List Datum) (levels : s.levels.length = depth) :
      ∃ gaps, gaps ++ afterGaps text = text ∧
        scanFrom extent (s.within opening before) text =
          scanFrom extent ((s.skip gaps.length).within opening before) (afterGaps text) ∧
        Follows extent ((s.skip gaps.length).within opening before) (afterGaps text) (item (afterGaps text)) := by
    obtain ⟨gaps, split, bare, passed⟩ := exists_gaps text
    exact ⟨gaps, split, passed rfl, tracks rfl (State.isComplete_within _ _ _) (congrArg (· + 1) levels) bare⟩
  fun_induction many (behind afterGaps item) text generalizing s before with
  | case1 text refusal refused final =>
      obtain ⟨gaps, split, passed, follows⟩ := follows text before levels
      rw [behind] at refused
      rw [refused] at follows
      cases follows with
      | settled settles =>
          cases settles with
          | failed used final split' scanned =>
              refine .failed (gaps ++ used) final (by rw [List.append_assoc, split', split]) ?_
              rw [passed, scanned, List.length_append, ← Nat.add_assoc]
              rfl
      | rejected => cases final
  | case2 text refusal refused final =>
      obtain ⟨gaps, split, passed, follows⟩ := follows text before levels
      rw [behind] at refused
      rw [refused] at follows
      cases follows with
      | settled settles =>
          cases settles with
          | failed used final' split' scanned => exact absurd final' final
      | rejected stuck => exact .read gaps split passed stuck
  | case3 text first rest read shorter ih =>
      obtain ⟨gaps, split, passed, follows⟩ := follows text before levels
      rw [behind] at read
      rw [read] at follows
      cases follows with
      | settled settles =>
        cases settles with
        | read used split' scanned =>
          have given : ((((s.skip gaps.length).within opening before).skip used.length).give first) =
              (s.skip (gaps ++ used).length).within opening (first :: before) := by
            rw [List.length_append, ← State.skip_skip, ← State.within_give bracket]
            rfl
          have collects := (@ih (s.skip (gaps ++ used).length) (first :: before) levels).after
            (by rw [List.append_assoc, split', split]) (by rw [passed, scanned, given])
          exact collects
  | case4 text first rest read idle =>
      have advanced := advances.behind afterGaps_suffix text
      rw [read] at advanced
      cases advanced with
      | ok left shorter => exact absurd shorter idle

/-- The brackets around a compound form. -/
inductive Brackets : (first closing : Char) → Opening → Prop
  | round : Brackets '(' ')' .round
  | square : Brackets '[' ']' .square
  | curly (start : Nat) : Brackets '\x7b' '\x7d' (.curly start)

namespace Brackets

variable {first closing : Char}

theorem not_mark (h : Brackets first closing opening) (name : String) : opening ≠ .mark name := by
  cases h <;> exact nofun

theorem closer (h : Brackets first closing opening) : closing ∈ closers := by
  cases h <;> decide

/-- Only its own bracket closes the form. -/
theorem stays (h : Brackets first closing opening) {c : Char} (other : c ≠ closing) (items : List Datum) :
    State.close? c ⟨opening, items⟩ = none := by
  cases h <;> simp [State.close?, other]

end Brackets

/-- What is read inside a compound form, up to and including its closing bracket. -/
inductive Closes (extent : Extent) (s : State) (opening : Opening) (closing : Char) (text : List Char) :
    Except Refusal (List Datum × List Char) → Prop
  | read {items : List Datum} (used : List Char) {rest : List Char} (split : used ++ closing :: rest = text)
      (scanned : scanFrom extent (s.within opening []) text =
        scanFrom extent ((s.skip used.length).within opening items.reverse) (closing :: rest)) :
      Closes extent s opening closing text (.ok (items, rest))
  | failed {refusal : Refusal} (used : List Char) (final : refusal.final = true)
      (split : used ++ refusal.rest = text)
      (scanned : scanFrom extent (s.within opening []) text =
        .error ⟨refusal.cause, s.offset + used.length⟩) :
      Closes extent s opening closing text (.error refusal)

theorem closes_items {first closing : Char} (brackets : Brackets first closing opening)
    (advances : item.Advances) (tracks : Tracks (depth + 1) item) (levels : s.levels.length = depth) :
    Closes extent s opening closing text (items (some item) closing text) := by
  have collects := @collects_many extent s text opening depth item brackets.not_mark advances tracks [] levels
  change Closes extent s opening closing text ((many (behind afterGaps item) >>= fun items =>
    cut (behind afterGaps (char closing)) >>= fun _ => pure items) text)
  generalize collected : many (behind afterGaps item) text = outcome at collects
  cases collects with
  | failed used final split scanned =>
      rw [bind_of_error collected]
      exact .failed used final split scanned
  | @read items used rest split scanned stuck =>
      rw [bind_of_ok collected]
      rw [List.append_nil] at scanned stuck
      by_cases closed : (afterGaps rest).head? = some closing
      · obtain ⟨last, here⟩ := List.head?_eq_some_iff.1 closed
        have read : behind afterGaps (char closing) rest = .ok ((), last) := by
          rw [behind, here, char_self]
        rw [bind_of_ok (cut_of_ok read)]
        rw [here] at split scanned
        exact .read used split scanned
      · have other : ∀ c ∈ (afterGaps rest).head?, c ≠ closing := by
          rintro c mem rfl
          exact closed mem
        have refused : behind afterGaps (char closing) rest = .error ⟨false, .mismatch, afterGaps rest⟩ :=
          char_eq_error other
        rw [bind_of_error (cut_of_error refused)]
        obtain ⟨_, _, bare, _⟩ := exists_gaps rest
        refine .failed used rfl split (scanned.trans ?_)
        refine scanFrom_blocked rfl (State.isComplete_within _ _ _) bare (fun _ => nofun) stuck ?_
        rintro c mem _ ⟨⟩
        exact brackets.stays (other c mem) _

/-- A compound form is read from its opening to its closing bracket, if what is made of its items is what closing
it gives. -/
theorem settles_brackets {inner : Option (Rule Datum)} (inside : Inside depth inner)
    (levels : s.levels.length = depth) {first closing : Char} (brackets : Brackets first closing opening)
    (opens : s.step extent first = (s.skip 1).enter opening) {rule : Rule Datum}
    (refuses : ∀ refusal, items inner closing text = .error refusal → rule text = .error refusal)
    (makes : ∀ items rest, Descent.items inner closing text = .ok (items, rest) →
      (∃ form, State.close? closing ⟨opening, items.reverse⟩ = some (.ok form) ∧
        rule text = .ok (form, rest)) ∨
      ∃ refusal, State.close? closing ⟨opening, items.reverse⟩ =
          some (.error ⟨refusal.cause, s.offset + 1⟩) ∧
        rule text = .error refusal ∧ refusal.final = true ∧ refusal.rest = text) :
    Settles extent s (first :: text) (rule text) := by
  cases inside with
  | full full =>
      rw [refuses _ rfl]
      refine .failed [first] rfl rfl ?_
      refine scanFrom_of_stepError ?_ text
      rw [opens, State.enter_of_full (s := s.skip 1) (levels ▸ full)]
      rfl
  | @room item room advances tracks =>
      have closes := @closes_items extent (s.skip 1) text opening depth item first closing brackets advances
        tracks levels
      have entered : scanFrom extent s (first :: text) =
          scanFrom extent ((s.skip 1).within opening []) text :=
        scanFrom_of_step (opens.trans (State.enter_of_room (s := s.skip 1) (levels ▸ room) opening)) text
      generalize read : items (some item) closing text = outcome at closes
      cases closes with
      | failed used final split scanned =>
          rw [refuses _ read]
          refine .failed (first :: used) final (congrArg (first :: ·) split) ?_
          rw [entered, scanned, List.length_cons, Nat.add_comm used.length, ← Nat.add_assoc]
          rfl
      | @read items used rest split scanned =>
          obtain ⟨form, closed, made⟩ | ⟨refusal, closed, refused, final, place⟩ := makes items rest read
          · rw [made]
            refine .read (first :: (used ++ [closing])) (by simpa using split) ?_
            rw [entered, scanned, scanFrom_of_step (State.step_close brackets.closer closed _),
              State.skip_skip, State.skip_skip]
            simp only [List.length_cons, List.length_append, List.length_nil]
            rw [Nat.add_comm 1]
          · rw [refused]
            refine .failed [first] final (congrArg (first :: ·) place) ?_
            rw [entered, scanned]
            refine scanFrom_of_stepError ?_ rest
            rw [State.step_closing brackets.closer, closed]
            rfl

end Items

/-- Where a form has to stand, what is rejected is refused for good. -/
theorem Follows.cut {item : Rule Datum} (h : Follows extent s text (item text)) (blank : s.mode = .blank)
    (unfinished : s.isComplete extent = false) (bare : Bare text) (inside : s.levels ≠ [])
    (stays : ∀ c, ∀ level ∈ s.levels.head?, State.close? c level = none) :
    Settles extent s text (item.cut text) := by
  generalize read : item text = outcome at h
  cases h with
  | settled settles =>
      cases settles with
      | read used split scanned =>
          rw [cut_of_ok read]
          exact .read used split scanned
      | failed used final split scanned =>
          rw [cut_of_error read]
          exact .failed used rfl split scanned
  | rejected stuck =>
      rw [cut_of_error read]
      exact .failed [] rfl rfl
        (scanFrom_blocked blank unfinished bare (fun _ => inside) stuck fun c _ => stays c)

/-- Behind a mark, and any gaps there, a form has to stand. -/
theorem settles_item_underMark {item : Rule Datum} {name : String} (tracks : Tracks (depth + 1) item)
    (levels : s.levels.length = depth) :
    Settles extent (s.within (.mark name) []) text (cut (behind afterGaps item) text) := by
  obtain ⟨gaps, split, bare, passed⟩ := exists_gaps text
  have unfinished := @State.isComplete_within extent (s.skip gaps.length) (.mark name) []
  have follows : Follows extent ((s.skip gaps.length).within (.mark name) []) (afterGaps text)
      (item (afterGaps text)) :=
    tracks rfl unfinished (congrArg (· + 1) levels) bare
  have settles := (follows.cut rfl unfinished bare nofun (by rintro c _ ⟨⟩; rfl)).prepend gaps
    (s := s.within (.mark name) []) ((congrArg _ split).trans (passed rfl)) rfl rfl rfl
  rw [split] at settles
  exact settles

/-- Items that make no map are too few or have keys that are none. -/
theorem mapOf_error {items : List Datum} {cause : Cause} (h : State.mapOf items = .error cause) :
    cause = .oddEntries ∨ cause = .badKey := by
  unfold State.mapOf at h
  split at h
  · cases h
    exact .inl rfl
  · split at h <;> cases h
    exact .inr rfl

theorem markName_tilde (alone : text.head? ≠ some '@') :
    markName ('~' :: text) = .ok ("unquote", text) := by
  have spliced : (mark ['~', '@'] "splice-unquote").Rejects ('~' :: text) := by
    refine Rejects.bind ⟨⟨false, .mismatch, '~' :: text⟩, if_neg ?_, rfl⟩ _
    cases text with
    | nil => exact Bool.false_ne_true
    | cons c text =>
        have differs : '@' ≠ c := fun same => alone (congrArg some same.symm)
        simp [differs]
  rw [markName, either_of_rejects spliced]
  rfl

theorem rejects_underMark {inner : Option (Rule Datum)} {c : Char} (other : c ∉ ['\x27', '\x60', '~']) :
    (underMark inner).Rejects (c :: text) := by
  have rejects {d : Char} (mem : d ∈ ['\x27', '\x60', '~']) (word : List Char) (name : String) :
      (mark (d :: word) name).Rejects (c :: text) := by
    refine (rejects_tag ?_ word).bind _
    rintro _ ⟨⟩ rfl
    exact other mem
  exact Rejects.bind ((rejects (by decide) _ _).either ((rejects (by decide) _ _).either
    ((rejects (by decide) _ _).either (rejects (by decide) _ _)))) _

/-- A tilde that no at sign follows opens a form. -/
theorem scanFrom_tilde (here : s.mode = .tilde) (alone : text.head? ≠ some '@') :
    scanFrom extent s text = s.enter (.mark "unquote") >>= fun t => scanFrom extent t text := by
  have opened : s.enter (.mark "unquote") = .ok (s.within (.mark "unquote") []) ∨
      s.enter (.mark "unquote") = .error ⟨.tooDeep, s.offset⟩ := by
    by_cases room : s.levels.length + 1 < nestingLimit
    · exact .inl (State.enter_of_room room _)
    · exact .inr (State.enter_of_full (Nat.le_of_not_lt room) _)
  cases text with
  | nil =>
      rw [scanFrom_nil]
      simp only [State.finish, State.settle, here]
      obtain opened | opened := opened <;> rw [opened] <;> rfl
  | cons c text =>
      have differs : c ≠ '@' := fun same => alone (congrArg some same)
      rw [scanFrom_cons]
      simp only [State.step, here, differs, scanFrom_cons]
      obtain opened | opened := opened <;> rw [opened] <;> rfl

section Compound

variable {inner : Option (Rule Datum)} (inside : Inside depth inner) (levels : s.levels.length = depth)

include inside levels

/-- A list or vector is made of any items. -/
theorem settles_seq {kind : SeqKind} {first closing : Char} (brackets : Brackets first closing opening)
    (opens : s.step extent first = (s.skip 1).enter opening)
    (makes : ∀ items, State.close? closing ⟨opening, items⟩ = some (.ok (.seq () kind items.reverse))) :
    Settles extent s (first :: text)
      ((items inner closing >>= fun items => pure (Form.seq () kind items : Datum)) text) := by
  refine settles_brackets inside levels brackets opens (fun refusal refused => bind_of_error refused)
    fun items rest read => .inl ⟨_, makes items.reverse, ?_⟩
  rw [List.reverse_reverse, bind_of_ok read]
  rfl

/-- A mark opens a form that its item closes. -/
theorem settles_mark (word : List Char) {name : String} (read : markName (word ++ rest) = .ok (name, rest))
    (enters : scanFrom extent s (word ++ rest) =
      (s.skip word.length).enter (.mark name) >>= fun t => scanFrom extent t rest) :
    Settles extent s (word ++ rest) (underMark inner (word ++ rest)) := by
  rw [underMark, bind_of_ok read]
  cases inside with
  | full full =>
      refine .failed word rfl rfl ?_
      rw [enters, State.enter_of_full (s := s.skip word.length) (levels ▸ full)]
      rfl
  | @room item room advances tracks =>
      rw [State.enter_of_room (s := s.skip word.length) (levels ▸ room)] at enters
      have settles := @settles_item_underMark extent (s.skip word.length) rest depth item name tracks levels
      change Settles extent s (word ++ rest)
        ((cut (behind afterGaps item) >>= fun form => pure (.seq () .list [.symbol name, form])) rest)
      generalize item' : cut (behind afterGaps item) rest = outcome at settles
      cases settles with
      | @read form used last split scanned =>
          rw [bind_of_ok item']
          refine .read (word ++ used) (by rw [List.append_assoc, split]) ?_
          rw [enters, List.length_append, ← State.skip_skip]
          exact scanned
      | @failed refusal used final split scanned =>
          rw [bind_of_error item']
          refine .failed (word ++ used) final (by rw [List.append_assoc, split]) ?_
          rw [enters, List.length_append, ← Nat.add_assoc]
          exact scanned

variable (blank : s.mode = .blank) (unfinished : s.isComplete extent = false)

include blank unfinished

theorem settles_list (text : List Char) : Settles extent s ('(' :: text) (list inner ('(' :: text)) :=
  settles_seq inside levels .round (step_of_blank blank unfinished (by decide) (by decide)) fun _ => rfl

theorem settles_vector (text : List Char) : Settles extent s ('[' :: text) (vector inner ('[' :: text)) :=
  settles_seq inside levels .square (step_of_blank blank unfinished (by decide) (by decide)) fun _ => rfl

/-- Items that make no map are refused behind the opening bracket. -/
theorem settles_map (text : List Char) : Settles extent s ('\x7b' :: text) (map inner ('\x7b' :: text)) := by
  rw [map, bind_of_ok (char_self '\x7b' text)]
  refine settles_brackets inside levels (.curly (s.offset + 1))
    (step_of_blank blank unfinished (by decide) (by decide)) (fun refusal refused => ?_) fun items rest read => ?_
  · rw [entries, refused]
  · simp only [entries, read, State.close?, List.reverse_reverse]
    cases made : State.mapOf items with
    | ok form => exact .inl ⟨form, rfl, rfl⟩
    | error cause =>
        obtain rfl | rfl := mapOf_error made
        · exact .inr ⟨⟨true, .oddEntries, text⟩, rfl, rfl, rfl, rfl⟩
        · exact .inr ⟨⟨true, .badKey, text⟩, rfl, rfl, rfl, rfl⟩

/-- Each mark is read as the operator that it stands for. -/
theorem settles_underMark {c : Char} (mark : c ∈ ['\x27', '\x60', '~']) (text : List Char) :
    Settles extent s (c :: text) (underMark inner (c :: text)) := by
  simp only [List.mem_cons, List.not_mem_nil, or_false] at mark
  obtain rfl | rfl | rfl := mark
  · exact settles_mark inside levels ['\x27'] rfl
      ((scanFrom_cons _ _ _).trans (congrArg (· >>= _) (step_of_blank blank unfinished (by decide) (by decide))))
  · exact settles_mark inside levels ['\x60'] rfl
      ((scanFrom_cons _ _ _).trans (congrArg (· >>= _) (step_of_blank blank unfinished (by decide) (by decide))))
  · have stepped : s.step extent '~' = .ok { s.skip 1 with mode := .tilde } :=
      step_of_blank blank unfinished (by decide) (by decide)
    by_cases spliced : text.head? = some '@'
    · obtain ⟨rest, rfl⟩ := List.head?_eq_some_iff.1 spliced
      exact settles_mark inside levels ['~', '@'] rfl ((scanFrom_of_step stepped _).trans (scanFrom_cons _ _ _))
    · exact settles_mark inside levels ['~'] (markName_tilde spliced)
        ((scanFrom_of_step stepped text).trans (scanFrom_tilde rfl spliced))

/-- A form begins with a mark, an opening bracket or a token. -/
theorem follows_formOf (bare : Bare text) : Follows extent s text (formOf inner text) := by
  cases text with
  | nil => exact .rejected nofun
  | cons c text =>
      by_cases mark : c ∈ ['\x27', '\x60', '~']
      · exact .settled (settles_underMark inside levels blank unfinished mark text).either
      have other {d : Char} (differs : c ≠ d) : ∀ c' ∈ (c :: text).head?, c' ≠ d := by
        rintro _ ⟨⟩
        exact differs
      rw [formOf, either_of_rejects (rejects_underMark mark)]
      by_cases round : c = '('
      · exact round ▸ .settled (settles_list inside levels blank unfinished text).either
      have noList : (list inner).Rejects (c :: text) := (rejects_char (other round)).bind _
      rw [either_of_rejects noList]
      by_cases square : c = '['
      · exact square ▸ .settled (settles_vector inside levels blank unfinished text).either
      have noVector : (vector inner).Rejects (c :: text) := (rejects_char (other square)).bind _
      rw [either_of_rejects noVector]
      by_cases curly : c = '\x7b'
      · exact curly ▸ .settled (settles_map inside levels blank unfinished text).either
      have noMap : (map inner).Rejects (c :: text) := (rejects_char (other curly)).bind _
      rw [either_of_rejects noMap]
      refine follows_token blank unfinished bare ?_
      simp only [openers, List.mem_cons, not_or] at mark ⊢
      exact ⟨round, square, curly, mark⟩

end Compound

/-- At each depth the rule for forms reads what is read character by character. -/
theorem tracks_form (depth : Nat) : Tracks depth (form depth) := by
  induction depth using form.induct with
  | case1 depth ih =>
      rw [form_eq, inner?]
      intro extent s text blank unfinished levels bare
      refine follows_formOf ?_ levels blank unfinished bare
      split
      next full => exact .full full
      next room => exact .room (Nat.lt_of_not_le room) (advances_form (depth + 1)) (ih room)

end Reader

end AnnotatedLisp
