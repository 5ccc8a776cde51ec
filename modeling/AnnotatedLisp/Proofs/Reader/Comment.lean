import AnnotatedLisp.Proofs.Reader.Alike
import AnnotatedLisp.Proofs.Reader.Continuation

/-!
Comments mean nothing.

A comment goes up to the end of its line, whatever characters it has, and behind it reading goes on as behind
the end of the line alone. There is one exception: a carriage return that stands in a comment has to be
followed by a line feed, or else the text has a fault there.
-/

namespace AnnotatedLisp

namespace Reader

def Mode.isString : Mode → Bool
  | .string _ | .escape _ _ => true
  | _ => false

/-- The token that is open where a text ends, unless there is a fault in the text. -/
def openToken? (text : String) : Option Mode :=
  match run .allForms .start text.toList with
  | .ok s => some s.mode
  | .error _ => none

/-- A string literal is open where the text ends. -/
def EndsInString (text : String) : Prop :=
  ∃ mode, openToken? text = some mode ∧ mode.isString = true

/-- In the comment, or in one that was open before it, something other than a line feed follows a carriage
return. -/
def StrayReturn (before comment : String) : Prop :=
  (∃ start, openToken? before = some (.commentReturn start)) ∨ '\r' ∈ comment.toList.dropLast

section Line

variable {extent : Extent} {s t : State} {start : Nat} {text : List Char}

/-- In a comment all characters are passed over up to the line feed. -/
theorem run_comment (here : s.mode = .comment start) (line : '\n' ∉ text)
    (followed : '\r' ∉ text.dropLast) :
    ∃ t, run extent s (text ++ ['\n']) = .ok t ∧ t.mode = .blank ∧ t.levels = s.levels ∧
      t.forms = s.forms := by
  induction text generalizing s with
  | nil =>
      have ended : s.step extent '\n' = .ok { s.advance with mode := .blank } := by
        simp [State.step, here]
      refine ⟨{ s.advance with mode := .blank }, ?_, rfl, rfl, rfl⟩
      rw [List.nil_append, run_cons, ended]
      rfl
  | cons c text ih =>
      have noFeed : c ≠ '\n' := fun same => line (same ▸ List.mem_cons_self)
      have line : '\n' ∉ text := fun mem => line (List.mem_cons_of_mem _ mem)
      rw [List.cons_append, run_cons]
      cases text with
      | nil =>
          -- A carriage return here is followed by the line feed.
          by_cases last : c = '\r'
          · have stepped : s.step extent c = .ok { s.advance with mode := .commentReturn start } := by
              simp [State.step, here, last]
            refine ⟨{ s.advance.advance with mode := .blank }, ?_, rfl, rfl, rfl⟩
            rw [stepped]
            rfl
          · have stepped : s.step extent c = .ok s.advance := by
              simp [State.step, here, last, noFeed]
            rw [stepped]
            exact ih (s := s.advance) here line List.not_mem_nil
      | cons d text =>
          have calm : c ≠ '\r' := fun same => followed (by simp [same])
          have followed : '\r' ∉ (d :: text).dropLast := fun mem =>
            followed (List.mem_cons_of_mem _ mem)
          have stepped : s.step extent c = .ok s.advance := by
            simp [State.step, here, calm, noFeed]
          rw [stepped]
          exact ih (s := s.advance) here line followed

/-- At a carriage return that no line feed follows the comment has a fault. -/
theorem run_comment_error (here : s.mode = .comment start) (line : '\n' ∉ text)
    (stray : '\r' ∈ text.dropLast) (rest : List Char) :
    ∃ fault, run .allForms s (text ++ rest) = .error fault ∧ fault.cause = .unexpected := by
  induction text generalizing s with
  | nil => cases stray
  | cons c text ih =>
      have noFeed : c ≠ '\n' := fun same => line (same ▸ List.mem_cons_self)
      have line : '\n' ∉ text := fun mem => line (List.mem_cons_of_mem _ mem)
      cases text with
      | nil => cases stray
      | cons d text =>
          rw [List.cons_append, run_cons]
          by_cases first : c = '\r'
          · have noFeed : d ≠ '\n' := fun same => line (same ▸ List.mem_cons_self)
            have stepped : s.step .allForms c = .ok { s.advance with mode := .commentReturn start } := by
              simp [State.step, here, first]
            refine ⟨⟨.unexpected, start⟩, ?_, rfl⟩
            rw [stepped]
            change run .allForms _ (d :: (text ++ rest)) = _
            rw [run_cons]
            simp only [State.step, noFeed]
            rfl
          · have stepped : s.step .allForms c = .ok s.advance := by
              simp [State.step, here, first, noFeed]
            have stray : '\r' ∈ (d :: text).dropLast := by
              rw [List.dropLast_cons_cons] at stray
              exact (List.mem_cons.1 stray).resolve_left (Ne.symm first)
            rw [stepped]
            exact ih (s := s.advance) here line stray

/-- Where a line feed ends every token, a semicolon does so too, and begins a comment. -/
theorem step_semicolon (h : s.step .allForms '\n' = .ok t) (blank : t.mode = .blank)
    (free : ∀ start, s.mode ≠ .commentReturn start) :
    ∃ u start, s.step .allForms ';' = .ok u ∧ u.mode = .comment start ∧ u.levels = t.levels ∧
      u.forms = t.forms := by
  have ended : ∀ {x : Except Fault State}, (x >>= fun u => u.stepBlank .allForms '\n') = .ok t →
      ∃ u start, (x >>= fun u => u.stepBlank .allForms ';') = .ok u ∧ u.mode = .comment start ∧
        u.levels = t.levels ∧ u.forms = t.forms := by
    rintro (fault | u) h
    · cases h
    · cases h
      exact ⟨_, u.offset, rfl, rfl, rfl, rfl⟩
  unfold State.step at h ⊢
  cases mode : s.mode with
  | blank =>
      rw [mode] at h
      cases h
      exact ⟨_, s.offset, rfl, rfl, rfl, rfl⟩
  | word start chars =>
      rw [mode] at h
      exact ended h
  | keyword start chars =>
      rw [mode] at h
      exact ended h
  | string chars =>
      rw [mode] at h
      cases h
      cases blank
  | escape start chars =>
      rw [mode] at h
      cases h
  | tilde =>
      rw [mode] at h
      exact ended h
  | comment start =>
      rw [mode] at h
      cases h
      exact ⟨s.advance, start, rfl, mode, rfl, rfl⟩
  | commentReturn start => exact absurd mode (free start)

/-- Behind a comment reading goes on as behind the end of its line alone. -/
theorem run_behind_comment (h : s.step .allForms '\n' = .ok t) (blank : t.mode = .blank)
    (free : ∀ start, s.mode ≠ .commentReturn start) (line : '\n' ∉ text)
    (followed : '\r' ∉ text.dropLast) (rest : List Char) :
    Agree State.Alike (run .allForms s (';' :: (text ++ '\n' :: rest)))
      (run .allForms s ('\n' :: rest)) := by
  obtain ⟨u, start, stepped, here, levels, forms⟩ := step_semicolon h blank free
  obtain ⟨v, passed, blank', levels', forms'⟩ := @run_comment .allForms u start text here line followed
  have alike : v.Alike t := by
    refine ⟨?_, ?_, forms'.trans forms⟩
    · rw [blank, blank']
      exact .blank
    · rw [levels', levels]
      exact List.forall₂_same.2 fun level _ => ⟨by cases level.opening <;> constructor, rfl⟩
  have comment : run .allForms s (';' :: (text ++ '\n' :: rest)) = run .allForms v rest := by
    rw [run_cons, stepped, List.append_cons]
    change run .allForms u (text ++ ['\n'] ++ rest) = _
    rw [run_append, passed]
    rfl
  have feed : run .allForms s ('\n' :: rest) = run .allForms t rest := by
    rw [run_cons, h]
    rfl
  rw [comment, feed]
  exact run_alike alike rest

end Line

/-- A line that is readable, or that breaks off outside a string literal, ends every token. -/
theorem exists_step_of_readable {a : String}
    (readable : (∃ forms, readAll (a ++ "\n") = .ok forms) ∨
      isIncomplete (a ++ "\n") = true ∧ ¬EndsInString (a ++ "\n")) :
    ∃ s t, run .allForms .start a.toList = .ok s ∧ s.step .allForms '\n' = .ok t ∧
      t.mode = .blank := by
  have led : ∃ t, run .allForms .start (a.toList ++ ['\n']) = .ok t ∧ t.mode = .blank := by
    obtain ⟨forms, read⟩ | ⟨incomplete, outside⟩ := readable
    · rw [readAll_eq_ok, toList_lineFeed] at read
      exact ⟨_, run_of_scan read, rfl⟩
    · cases read : readAll (a ++ "\n") with
      | ok forms => simp [isIncomplete, read] at incomplete
      | error error =>
          have kind : error.kind = .incomplete := by simpa [isIncomplete, read] using incomplete
          obtain ⟨fault, scanned, rfl⟩ := readAll_eq_error.1 read
          have reaches := @reaches_run .allForms (a ++ "\n").toList .start
          rw [EndsInString, openToken?] at outside
          rw [scan] at scanned
          rw [← toList_lineFeed]
          cases led : run .allForms .start (a ++ "\n").toList with
          | error own =>
              rw [led] at scanned reaches
              obtain rfl : own = fault := Except.error.inj scanned
              -- Only the end of a text tells that the text ends.
              have cause : own.cause ≠ .endOfText := reaches
              have kind : own.kind = .incomplete := kind
              rw [Fault.kind] at kind
              split at kind <;> contradiction
          | ok t =>
              rw [led] at outside
              rw [toList_lineFeed] at led
              obtain blank | ⟨chars, string⟩ := run_lineFeed led
              · exact ⟨t, rfl, blank⟩
              · exact absurd ⟨t.mode, rfl, by rw [string]; rfl⟩ outside
  obtain ⟨t, led, blank⟩ := led
  rw [run_append] at led
  cases read : run .allForms .start a.toList with
  | error fault =>
      rw [read] at led
      cases led
  | ok s =>
      rw [read] at led
      refine ⟨s, t, rfl, ?_, blank⟩
      rw [← led]
      exact (bind_pure _).symm

theorem toList_comment (a b c : String) :
    (a ++ ";" ++ c ++ "\n" ++ b).toList = a.toList ++ ';' :: (c.toList ++ '\n' :: b.toList) := by
  simp [String.toList_append]

/-- A comment behind a text, as long as it is the last thing on its line, changes nothing in what is read.
If a carriage return stands in it that no line feed follows, then the text is refused, whatever comes
behind. -/
theorem readAll_comment (a b c : String) (line : '\n' ∉ c.toList)
    (readable : (∃ forms, readAll (a ++ "\n") = .ok forms) ∨
      isIncomplete (a ++ "\n") = true ∧ ¬EndsInString (a ++ "\n")) :
    (¬StrayReturn a c → ∀ forms,
      readAll (a ++ ";" ++ c ++ "\n" ++ b) = .ok forms ↔ readAll (a ++ "\n" ++ b) = .ok forms) ∧
    (StrayReturn a c → ∃ error, readAll (a ++ ";" ++ c ++ "\n" ++ b) = .error error ∧
      error.kind = .invalidSyntax) := by
  obtain ⟨s, t, read, stepped, blank⟩ := exists_step_of_readable readable
  have token : openToken? a = some s.mode := by rw [openToken?, read]
  have behind : ∀ rest, run .allForms .start (a.toList ++ rest) = run .allForms s rest := by
    intro rest
    rw [run_append, read]
    rfl
  constructor
  · intro calm forms
    have free : ∀ start, s.mode ≠ .commentReturn start := fun start here =>
      calm (.inl ⟨start, by rw [token, here]⟩)
    have agree := run_behind_comment stepped blank free line (fun stray => calm (.inr stray)) b.toList
    have feed : (a ++ "\n" ++ b).toList = a.toList ++ '\n' :: b.toList := by
      simp [String.toList_append]
    rw [readAll_eq_ok, readAll_eq_ok, toList_comment, feed, scan, scan, behind, behind]
    exact (agree.bind fun _ _ alike => alike.finish).ok_iff forms
  · intro stray
    have failed : ∃ fault, run .allForms s (';' :: (c.toList ++ '\n' :: b.toList)) = .error fault ∧
        fault.cause = .unexpected := by
      by_cases open? : ∃ start, s.mode = .commentReturn start
      · obtain ⟨start, here⟩ := open?
        refine ⟨⟨.unexpected, start⟩, ?_, rfl⟩
        rw [run_cons, State.step, here]
        rfl
      · have free : ∀ start, s.mode ≠ .commentReturn start := fun start here => open? ⟨start, here⟩
        obtain ⟨start, here⟩ | stray := stray
        · exact absurd (Option.some.inj (token.symm.trans here)) (free start)
        · obtain ⟨u, start, began, here, _, _⟩ := step_semicolon stepped blank free
          rw [run_cons, began]
          exact run_comment_error here line stray _
    obtain ⟨fault, failed, cause⟩ := failed
    refine ⟨_, readAll_eq_error.2 ⟨fault, ?_, rfl⟩, ?_⟩
    · rw [toList_comment, scan, behind, failed]
      rfl
    · change fault.kind = _
      rw [Fault.kind, cause]

/-- Behind a quote within a list a comment may have any brackets, quotes and semicolons, and a carriage
return where the line ends. In the middle of the line a carriage return is a fault. -/
theorem readAll_of_commented_lines :
    readAll ("(f 'x" ++ ";" ++ " \"[;\r" ++ "\n" ++ "y)") =
        .ok [.seq () .list [.symbol "f", .seq () .list [.symbol "quote", .symbol "x"], .symbol "y"]] ∧
      ∃ error, readAll ("f " ++ ";" ++ "a\rb" ++ "\n" ++ "x") = .error error ∧
        error.kind = .invalidSyntax := by
  have outside : ¬EndsInString ("(f 'x" ++ "\n") := by
    rintro ⟨mode, here, string⟩
    have blank : openToken? ("(f 'x" ++ "\n") = some .blank := rfl
    cases blank.symm.trans here
    cases string
  have calm : ¬StrayReturn "(f 'x" " \"[;\r" := by
    rintro (⟨start, here⟩ | stray)
    · have word : openToken? "(f 'x" = some (.word 4 ['x']) := rfl
      cases word.symm.trans here
    · exact absurd stray (by decide)
  exact ⟨((readAll_comment "(f 'x" "y)" " \"[;\r" (by decide) (.inr ⟨rfl, outside⟩)).1 calm _).2 rfl,
    (readAll_comment "f " "x" "a\rb" (by decide) (.inl ⟨_, rfl⟩)).2 (.inr (by decide))⟩

/-- A carriage return within a comment makes a text unreadable that is readable without the comment. -/
theorem not_readAll_of_stray_return :
    '\n' ∉ "a\rb".toList ∧ readAll ("" ++ "\n") = .ok [] ∧
      readAll ("" ++ "\n" ++ "x") = .ok [.symbol "x"] ∧
      ∀ forms, readAll ("" ++ ";" ++ "a\rb" ++ "\n" ++ "x") ≠ .ok forms :=
  ⟨by decide, rfl, rfl, nofun⟩

end Reader

end AnnotatedLisp
