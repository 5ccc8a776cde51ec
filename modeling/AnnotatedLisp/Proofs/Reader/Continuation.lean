import AnnotatedLisp.Proofs.Reader.Run

/-!
Reading goes on at the end of a line.

Where no token and no compound form is open, the rest of a text is read as a text of its own: it gives the
same forms, and its faults lie as far behind as the rest does. A text that ends in a line feed either
leaves such a place, or a form or string that is open, or has a fault in it, which what follows does not
undo.
-/

namespace AnnotatedLisp

namespace Reader

namespace Opening

/-- The same opening, so many characters later. -/
def shift (count : Nat) : Opening → Opening
  | .curly start => .curly (start + count)
  | opening => opening

end Opening

namespace Level

def shift (count : Nat) (level : Level) : Level :=
  { level with opening := level.opening.shift count }

end Level

namespace Mode

def shift (count : Nat) : Mode → Mode
  | .word start chars => .word (start + count) chars
  | .keyword start chars => .keyword (start + count) chars
  | .escape start chars => .escape (start + count) chars
  | .comment start => .comment (start + count)
  | .commentReturn start => .commentReturn (start + count)
  | mode => mode

end Mode

namespace Fault

def shift (count : Nat) (fault : Fault) : Fault :=
  { fault with offset := fault.offset + count }

/-- A fault in the rest of a text is told as if there were no other text. -/
theorem message_shift (fault : Fault) (before after : List Char) :
    (fault.shift before.length).message (before ++ after) = fault.message after := by
  have rest : (before ++ after).drop (fault.offset + before.length) = after.drop fault.offset := by
    rw [Nat.add_comm, List.drop_append, List.drop_of_length_le (by omega), List.nil_append,
      Nat.add_sub_cancel_left]
  unfold message
  simp only [shift, rest]

end Fault

namespace State

/-- The same state, so many characters later and behind the forms that were read before. -/
def shift (count : Nat) (before : List Datum) (s : State) : State :=
  ⟨s.offset + count, s.mode.shift count, s.levels.map (Level.shift count), s.forms ++ before⟩

end State

/-- What is read, so many characters later and behind other forms. -/
def shifted (count : Nat) (before : List Datum) : Except Fault State → Except Fault State
  | .ok s => .ok (s.shift count before)
  | .error fault => .error (fault.shift count)

theorem shifted_bind {count : Nat} {before : List Datum} {f g : State → Except Fault State}
    (same : ∀ s, g (s.shift count before) = shifted count before (f s))
    (result : Except Fault State) :
    shifted count before result >>= g = shifted count before (result >>= f) := by
  cases result with
  | error fault => rfl
  | ok s => exact same s

namespace State

variable (count : Nat) (before : List Datum) (s : State)

theorem deliver_shift (form : Datum) (levels : List Level) (forms : List Datum) :
    deliver form (levels.map (Level.shift count)) (forms ++ before) =
      ((deliver form levels forms).1.map (Level.shift count),
        (deliver form levels forms).2 ++ before) := by
  induction levels generalizing form with
  | nil => rfl
  | cons level levels ih =>
      obtain ⟨opening, items⟩ := level
      cases opening with
      | mark name => exact ih _
      | round | square | curly start => rfl

theorem give_shift (form : Datum) :
    (s.shift count before).give form = (s.give form).shift count before := by
  simp only [give, shift, deliver_shift]
  rfl

theorem advance_shift : (s.shift count before).advance = s.advance.shift count before := by
  simp only [advance, shift, Nat.add_right_comm]

theorem enter_shift (opening : Opening) :
    (s.shift count before).enter (opening.shift count) =
      shifted count before (s.enter opening) := by
  simp only [enter, shift, List.length_map]
  split <;> rfl

theorem endWord_shift (start : Nat) (chars : List Char) :
    (s.shift count before).endWord (start + count) chars =
      shifted count before (s.endWord start chars) := by
  unfold endWord
  split
  · rw [give_shift]
    rfl
  · rfl

theorem endKeyword_shift (start : Nat) (chars : List Char) :
    (s.shift count before).endKeyword (start + count) chars =
      shifted count before (s.endKeyword start chars) := by
  unfold endKeyword
  split
  · rfl
  · rw [give_shift]
    rfl

theorem close?_shift (c : Char) (level : Level) :
    close? c (level.shift count) =
      (close? c level).map fun closed => closed.mapError (Fault.shift count) := by
  obtain ⟨opening, items⟩ := level
  cases opening with
  | mark name => rfl
  | round | square =>
      simp only [Level.shift, Opening.shift, close?]
      split <;> first | rfl | contradiction
  | curly start =>
      by_cases closing : c = '\x7d'
      · subst closing
        simp only [Level.shift, Opening.shift, close?]
        cases mapOf items.reverse <;> rfl
      · simp [Level.shift, Opening.shift, close?, closing]

theorem stepToken_shift (c : Char) :
    (s.shift count before).stepToken c = shifted count before (s.stepToken c) := by
  have enters : ∀ opening : Opening, (s.shift count before).advance.enter (opening.shift count) =
      shifted count before (s.advance.enter opening) := fun opening => by
    rw [advance_shift, enter_shift]
  have next : (s.shift count before).offset + 1 = s.offset + 1 + count := Nat.add_right_comm ..
  unfold stepToken
  split
  · exact enters .round
  · exact enters .square
  · rw [next]
    exact enters (.curly (s.offset + 1))
  · exact enters (.mark "quote")
  · exact enters (.mark "quasiquote")
  · rw [advance_shift]
    rfl
  · rw [advance_shift]
    rfl
  · rw [advance_shift]
    rfl
  · split
    · rw [advance_shift]
      rfl
    · have shifts : (s.shift count before).levels = s.levels.map (Level.shift count) := rfl
      rw [shifts]
      cases s.levels with
      | nil => rfl
      | cons level levels =>
          rw [List.map_cons]
          dsimp only
          rw [close?_shift, advance_shift]
          rcases close? _ level with _ | fault | form
          · rfl
          · rfl
          · exact congrArg Except.ok (give_shift count before { s.advance with levels } form)

theorem stepBlank_shift (c : Char) :
    (s.shift count before).stepBlank .allForms c =
      shifted count before (s.stepBlank .allForms c) := by
  unfold stepBlank
  split
  · rw [advance_shift]
    rfl
  · split
    · rw [advance_shift]
      rfl
    · exact stepToken_shift count before s c

theorem step_shift (c : Char) :
    (s.shift count before).step .allForms c = shifted count before (s.step .allForms c) := by
  have ends : ∀ ended, (shifted count before ended >>= fun t => t.stepBlank .allForms c) =
      shifted count before (ended >>= fun t => t.stepBlank .allForms c) :=
    shifted_bind fun t => stepBlank_shift count before t c
  have shifts : (s.shift count before).mode = s.mode.shift count := rfl
  unfold step
  rw [shifts, advance_shift]
  cases s.mode with
  | blank => exact stepBlank_shift count before s c
  | word start chars =>
      dsimp only [Mode.shift]
      split
      · rfl
      · rw [endWord_shift]
        exact ends _
  | keyword start chars =>
      dsimp only [Mode.shift]
      split
      · rfl
      · rw [endKeyword_shift]
        exact ends _
  | string chars =>
      dsimp only [Mode.shift]
      split
      · exact congrArg Except.ok (give_shift count before s.advance _)
      · split <;> rfl
  | escape start chars =>
      dsimp only [Mode.shift]
      split <;> rfl
  | tilde =>
      dsimp only [Mode.shift]
      split
      · exact enter_shift count before s.advance (.mark "splice-unquote")
      · have enters : (s.shift count before).enter (.mark "unquote") =
            shifted count before (s.enter (.mark "unquote")) :=
          enter_shift count before s (.mark "unquote")
        rw [enters]
        exact ends _
  | comment start =>
      dsimp only [Mode.shift]
      split
      · rfl
      · split
        · rfl
        · rfl
  | commentReturn start =>
      dsimp only [Mode.shift]
      split <;> rfl

theorem settle_shift :
    (s.shift count before).settle .allForms = shifted count before (s.settle .allForms) := by
  have shifts : (s.shift count before).mode = s.mode.shift count := rfl
  unfold settle
  rw [shifts]
  cases s.mode with
  | blank | comment start => rfl
  | word start chars => exact endWord_shift count before s start chars
  | keyword start chars => exact endKeyword_shift count before s start chars
  | string chars | escape start chars => rfl
  | tilde => exact enter_shift count before s (.mark "unquote")
  | commentReturn start => rfl

/-- At the end the forms that were read before come first. -/
theorem finish_shift :
    (s.shift count before).finish .allForms =
      match s.finish .allForms with
      | .ok forms => .ok (before.reverse ++ forms)
      | .error fault => .error (fault.shift count) := by
  unfold finish
  rw [settle_shift]
  cases s.settle .allForms with
  | error fault => rfl
  | ok t =>
      obtain ⟨offset, mode, levels, forms⟩ := t
      cases levels with
      | nil => exact congrArg Except.ok List.reverse_append
      | cons level levels => rfl

end State

theorem run_shift (count : Nat) (before : List Datum) (text : List Char) (s : State) :
    run .allForms (s.shift count before) text = shifted count before (run .allForms s text) := by
  induction text generalizing s with
  | nil => rfl
  | cons c text ih =>
      rw [run_cons, run_cons, State.step_shift]
      exact shifted_bind ih _

/-- Where the forms before have been read, the rest of a text is read as a text of its own. -/
theorem scan_append {before after : List Char} {forms : List Datum}
    (h : run .allForms .start before = .ok (State.start.shift before.length forms.reverse)) :
    scan .allForms (before ++ after) =
      match scan .allForms after with
      | .ok more => .ok (forms ++ more)
      | .error fault => .error (fault.shift before.length) := by
  unfold scan
  rw [run_append, h]
  refine (congrArg (· >>= State.finish .allForms)
    (run_shift before.length forms.reverse after .start)).trans ?_
  cases run .allForms .start after with
  | error fault => rfl
  | ok s =>
      refine (State.finish_shift before.length forms.reverse s).trans ?_
      rw [List.reverse_reverse]
      rfl

/-- A text that ends in a line feed and is read without fault leaves nothing open. -/
theorem run_of_scan {text : List Char} {forms : List Datum}
    (h : scan .allForms (text ++ ['\n']) = .ok forms) :
    run .allForms .start (text ++ ['\n']) =
      .ok (State.start.shift (text ++ ['\n']).length forms.reverse) := by
  have reaches := @reaches_run .allForms (text ++ ['\n']) .start
  unfold scan at h
  cases read : run .allForms .start (text ++ ['\n']) with
  | error fault =>
      rw [read] at h
      cases h
  | ok s =>
      rw [read] at h reaches
      obtain ⟨offset, mode, levels, done⟩ := s
      have place : offset = State.start.offset + (text ++ ['\n']).length := reaches
      obtain blank | ⟨chars, string⟩ := run_lineFeed read
      · obtain rfl : mode = .blank := blank
        cases levels with
        | cons level levels => cases h
        | nil =>
            obtain rfl : done.reverse = forms := Except.ok.inj h
            rw [place, List.reverse_reverse]
            rfl
      · obtain rfl : mode = .string chars := string
        cases h

/-- Of a text that ends in a line feed, the end tells nothing but that something is open. -/
theorem finish_incomplete {text : List Char} {s : State} {fault : Fault}
    (read : run .allForms .start (text ++ ['\n']) = .ok s)
    (h : s.finish .allForms = .error fault) : fault.kind = .incomplete := by
  obtain ⟨offset, mode, levels, done⟩ := s
  obtain blank | ⟨chars, string⟩ := run_lineFeed read
  · obtain rfl : mode = .blank := blank
    cases levels with
    | nil => cases h
    | cons level levels =>
        cases h
        rfl
  · obtain rfl : mode = .string chars := string
    cases h
    rfl

theorem readAll_eq_ok {text : String} {forms : List Datum} :
    readAll text = .ok forms ↔ scan .allForms text.toList = .ok forms := by
  unfold readAll
  cases scan .allForms text.toList <;> simp

theorem readAll_eq_error {text : String} {error : ParseError} :
    readAll text = .error error ↔
      ∃ fault, scan .allForms text.toList = .error fault ∧ fault.toError text.toList = error := by
  unfold readAll
  cases scan .allForms text.toList <;> simp

theorem toList_lineFeed (a : String) : (a ++ "\n").toList = a.toList ++ ['\n'] :=
  String.toList_append

theorem readAll_append {a b : String} {forms : List Datum}
    (h : readAll (a ++ "\n") = .ok forms) :
    (∀ more, readAll (a ++ "\n" ++ b) = .ok (forms ++ more) ↔ readAll b = .ok more) ∧
      ∀ error, readAll b = .error error → ∃ error', readAll (a ++ "\n" ++ b) = .error error' ∧
        error'.kind = error.kind ∧ error'.message = error.message := by
  rw [readAll_eq_ok, toList_lineFeed] at h
  have both := @scan_append _ b.toList _ (run_of_scan h)
  rw [← toList_lineFeed] at both
  constructor
  · intro more
    rw [readAll_eq_ok, readAll_eq_ok, String.toList_append, both]
    cases scan .allForms b.toList <;> simp
  · intro error failed
    obtain ⟨fault, scanned, rfl⟩ := readAll_eq_error.1 failed
    rw [scanned] at both
    have continued : readAll (a ++ "\n" ++ b) = .error ((fault.shift (a ++ "\n").toList.length).toError
        ((a ++ "\n").toList ++ b.toList)) := by
      rw [← String.toList_append] at both ⊢
      exact readAll_eq_error.2 ⟨_, both, rfl⟩
    exact ⟨_, continued, rfl, fault.message_shift (a ++ "\n").toList b.toList⟩

theorem readAll_append_error {a : String} {error : ParseError}
    (h : readAll (a ++ "\n") = .error error) (complete : error.kind ≠ .incomplete) (b : String) :
    ∃ error', readAll (a ++ "\n" ++ b) = .error error' ∧ error'.kind = error.kind := by
  obtain ⟨fault, scanned, rfl⟩ := readAll_eq_error.1 h
  rw [toList_lineFeed] at scanned
  have failed : run .allForms .start (a.toList ++ ['\n']) = .error fault := by
    unfold scan at scanned
    cases read : run .allForms .start (a.toList ++ ['\n']) with
    | error own =>
        rw [read] at scanned
        cases scanned
        rfl
    | ok s =>
        rw [read] at scanned
        exact absurd (finish_incomplete read scanned) complete
  refine ⟨_, readAll_eq_error.2 ⟨fault, ?_, rfl⟩, rfl⟩
  unfold scan
  rw [String.toList_append, toList_lineFeed, run_append, failed]
  rfl

/-- The forms of a text that ends in a line feed are read whatever follows, and what follows is read as a
text of its own. A fault in such a text stays, unless it is that the text ends. So a text that some
continuation makes readable is readable, or known to be incomplete. -/
theorem readAll_lineFeed (a b : String) :
    (∀ forms, readAll (a ++ "\n") = .ok forms →
      (∀ more, readAll (a ++ "\n" ++ b) = .ok (forms ++ more) ↔ readAll b = .ok more) ∧
        ∀ error, readAll b = .error error → ∃ error', readAll (a ++ "\n" ++ b) = .error error' ∧
          error'.kind = error.kind ∧ error'.message = error.message) ∧
    (∀ error, readAll (a ++ "\n") = .error error → error.kind ≠ .incomplete →
      ∃ error', readAll (a ++ "\n" ++ b) = .error error' ∧ error'.kind = error.kind) ∧
    ((∃ forms, readAll (a ++ "\n" ++ b) = .ok forms) →
      (∃ forms, readAll (a ++ "\n") = .ok forms) ∨ isIncomplete (a ++ "\n") = true) := by
  refine ⟨fun _ => readAll_append, fun _ failed complete => readAll_append_error failed complete b, ?_⟩
  rintro ⟨forms, continued⟩
  cases read : readAll (a ++ "\n") with
  | ok forms => exact .inl ⟨forms, rfl⟩
  | error error =>
      by_cases incomplete : error.kind = .incomplete
      · exact .inr (by simp [isIncomplete, read, incomplete])
      · obtain ⟨error', failed, _⟩ := readAll_append_error read incomplete b
        rw [continued] at failed
        cases failed

/-- `x` is read behind the line `f` as it is alone, the fault in the line `)` stays, and the line `(f`,
which `x)` completes, is known to be incomplete. -/
theorem readAll_of_lines :
    readAll ("f" ++ "\n" ++ "x") = .ok [.symbol "f", .symbol "x"] ∧
      (∃ error, readAll (")" ++ "\n" ++ "x") = .error error ∧ error.kind = .invalidSyntax) ∧
      isIncomplete ("(f" ++ "\n") = true := by
  have fault : readAll (")" ++ "\n") =
      .error (.atOffset .invalidSyntax "Invalid syntax near ')\n'" [')', '\n'] 0) := rfl
  have closed : readAll ("(f" ++ "\n" ++ "x)") = .ok [.seq () .list [.symbol "f", .symbol "x"]] := rfl
  have opened : ¬∃ forms, readAll ("(f" ++ "\n") = .ok forms := nofun
  exact ⟨(((readAll_lineFeed "f" "x").1 [.symbol "f"] rfl).1 [.symbol "x"]).2 rfl,
    (readAll_lineFeed ")" "x").2.1 _ fault nofun,
    ((readAll_lineFeed "(f" "x)").2.2 ⟨_, closed⟩).resolve_left opened⟩

end Reader

end AnnotatedLisp
