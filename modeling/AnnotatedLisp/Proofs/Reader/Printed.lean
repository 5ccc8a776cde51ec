import AnnotatedLisp.Proofs.Reader.Run
import AnnotatedLisp.Proofs.Reader.Token

/-!
Reading what was printed.

Reading the text of a form leads to the state in which the form is given, except that a word at its end is
still open: it ends with the text, or before any character that is in no word. So forms are read one after
the other, whatever is open around them, as long as not too much is open.
-/

namespace AnnotatedLisp

namespace Reader

variable {extent : Extent}

namespace State

/-- The same state, so many characters later. -/
def skip (s : State) (count : Nat) : State :=
  { s with offset := s.offset + count }

theorem skip_levels (s : State) (count : Nat) : (s.skip count).levels = s.levels := rfl

theorem skip_skip (s : State) (m n : Nat) : (s.skip m).skip n = s.skip (m + n) := by
  simp only [skip, Nat.add_assoc]

/-- Reading goes on from `t` as from `u`, unless a word is continued. -/
structure Awaits (extent : Extent) (t u : State) : Prop where
  next : ∀ c, Token.isWordChar c = false → t.step extent c = u.step extent c
  last : t.settle extent = u.settle extent

theorem Awaits.refl (t : State) : Awaits extent t t :=
  ⟨fun _ _ => rfl, rfl⟩

theorem Awaits.trans {t u v : State} (h : Awaits extent t u) (h' : Awaits extent u v) :
    Awaits extent t v :=
  ⟨fun c stop => (h.next c stop).trans (h'.next c stop), h.last.trans h'.last⟩

end State

open State

/-- Reading the text in one state leads to another, except that a word at its end is still open. -/
def Leads (extent : Extent) (s : State) (text : List Char) (u : State) : Prop :=
  ∃ t, run extent s text = .ok t ∧ t.Awaits extent u

namespace Leads

variable {s u v : State} {text rest : List Char}

theorem of_run (h : run extent s text = .ok u) : Leads extent s text u :=
  ⟨u, h, .refl u⟩

theorem prepend {before : List Char} {t : State} (h : run extent s before = .ok t)
    (leads : Leads extent t text u) : Leads extent s (before ++ text) u := by
  obtain ⟨t', read, awaits⟩ := leads
  refine ⟨t', ?_, awaits⟩
  rw [run_append, h]
  exact read

/-- What follows is read from the state that was led to, if it does not continue a word. -/
theorem run_cons (h : Leads extent s text u) {c : Char} (stop : Token.isWordChar c = false) :
    run extent s (text ++ c :: rest) = run extent u (c :: rest) := by
  obtain ⟨t, read, awaits⟩ := h
  rw [run_append, read, Reader.run_cons, ← awaits.next c stop]
  rfl

theorem append (h : Leads extent s text u) (stop : ∀ c ∈ rest.head?, Token.isWordChar c = false)
    (h' : Leads extent u rest v) : Leads extent s (text ++ rest) v := by
  cases rest with
  | nil =>
      obtain ⟨t, read, awaits⟩ := h
      obtain ⟨t', read', awaits'⟩ := h'
      cases read'
      rw [List.append_nil]
      exact ⟨t, read, awaits.trans awaits'⟩
  | cons c rest =>
      obtain ⟨t, read, awaits⟩ := h'
      exact ⟨t, (h.run_cons (stop c rfl)).trans read, awaits⟩

end Leads

/-- Reading the text is refused because too much is open. -/
def Refuses (extent : Extent) (s : State) (text : List Char) : Prop :=
  ∃ fault, run extent s text = .error fault ∧ fault.cause = .tooDeep

namespace Refuses

variable {s t : State} {text : List Char}

theorem append (h : Refuses extent s text) (rest : List Char) : Refuses extent s (text ++ rest) := by
  obtain ⟨fault, failed, cause⟩ := h
  refine ⟨fault, ?_, cause⟩
  rw [run_append, failed]
  rfl

theorem prepend {before : List Char} (read : run extent s before = .ok t)
    (h : Refuses extent t text) : Refuses extent s (before ++ text) := by
  obtain ⟨fault, failed, cause⟩ := h
  refine ⟨fault, ?_, cause⟩
  rw [run_append, read]
  exact failed

/-- What follows a form is refused where it would be refused after the form was given. -/
theorem after {before : List Char} (leads : Leads extent s before t)
    (stop : ∀ c ∈ text.head?, Token.isWordChar c = false) (h : Refuses extent t text) :
    Refuses extent s (before ++ text) := by
  obtain ⟨fault, failed, cause⟩ := h
  cases text with
  | nil => cases failed
  | cons c text => exact ⟨fault, (leads.run_cons (stop c rfl)).trans failed, cause⟩

end Refuses

section Tokens

variable {s : State} {c : Char}

theorem step_of_blank (blank : s.mode = .blank) (unfinished : s.isComplete extent = false)
    (separates : Token.isSeparator c = false) (comment : c ≠ ';') :
    s.step extent c = s.stepToken c := by
  simp only [step, blank, stepBlank, separates, comment, unfinished]
  rfl

theorem step_word_first (blank : s.mode = .blank) (unfinished : s.isComplete extent = false)
    (word : Token.isWordChar c = true) :
    s.step extent c = .ok { s.skip 1 with mode := .word s.offset [c] } := by
  have differs : ∀ d, Token.isWordChar d = false → c ≠ d := by
    rintro d no rfl
    rw [word] at no
    cases no
  rw [step_of_blank blank unfinished (Token.isSeparator_of_isWordChar word) (differs _ (by decide)),
    stepToken.eq_9 s c (differs _ (by decide)) (differs _ (by decide)) (differs _ (by decide))
      (differs _ (by decide)) (differs _ (by decide)) (differs _ (by decide)) (differs _ (by decide))
      (differs _ (by decide)), if_pos word]
  rfl

/-- The characters of a token are collected as long as it goes on. -/
theorem run_collects {token : List Char → Mode} {text : List Char}
    (goesOn : ∀ (s : State) (chars : List Char), ∀ c ∈ text, s.mode = token chars →
      s.step extent c = .ok { s.skip 1 with mode := token (c :: chars) })
    (s : State) (chars : List Char) (here : s.mode = token chars) :
    run extent s text = .ok { s.skip text.length with mode := token (text.reverse ++ chars) } := by
  induction text generalizing s chars with
  | nil =>
      rw [run_nil]
      obtain ⟨offset, mode, levels, forms⟩ := s
      obtain rfl : mode = token chars := here
      rfl
  | cons c text ih =>
      rw [run_cons, goesOn s chars c List.mem_cons_self here]
      refine (ih (fun s chars c mem => goesOn s chars c (List.mem_cons_of_mem _ mem)) _ _ rfl).trans ?_
      simp only [skip, List.length_cons, List.reverse_cons, List.append_assoc, List.singleton_append]
      rw [Nat.add_right_comm, Nat.add_assoc]

theorem run_word {start : Nat} {chars text : List Char} (here : s.mode = .word start chars)
    (word : ∀ c ∈ text, Token.isWordChar c = true) :
    run extent s text =
      .ok { s.skip text.length with mode := .word start (text.reverse ++ chars) } := by
  refine run_collects (fun s chars c mem here => ?_) s chars here
  simp only [step, here, word c mem]
  rfl

theorem run_keyword {start : Nat} {chars text : List Char} (here : s.mode = .keyword start chars)
    (word : ∀ c ∈ text, Token.isWordChar c = true) :
    run extent s text =
      .ok { s.skip text.length with mode := .keyword start (text.reverse ++ chars) } := by
  refine run_collects (fun s chars c mem here => ?_) s chars here
  simp only [step, here, word c mem]
  rfl

theorem awaits_word {start : Nat} {chars : List Char} {form : Datum}
    (here : s.mode = .word start chars) (h : Token.ofWord? chars.reverse = some form) :
    s.Awaits extent (s.give form) := by
  have ends : s.endWord start chars = .ok (s.give form) := by rw [endWord, h]
  refine ⟨fun c stop => ?_, ?_⟩
  · have given : (s.give form).step extent c = (s.give form).stepBlank extent c := rfl
    rw [given]
    simp only [step, here, stop, ends]
    rfl
  · have given : (s.give form).settle extent = .ok (s.give form) := rfl
    rw [given]
    simp only [settle, here, ends]

theorem awaits_keyword {start : Nat} {chars : List Char} (here : s.mode = .keyword start chars)
    (inhabited : chars ≠ []) :
    s.Awaits extent (s.give (.keyword (String.ofList chars.reverse))) := by
  have ends : s.endKeyword start chars = .ok (s.give (.keyword (String.ofList chars.reverse))) := by
    rw [endKeyword, if_neg (by simpa using inhabited)]
  refine ⟨fun c stop => ?_, ?_⟩
  · simp only [step, here, stop, ends]
    rfl
  · simp only [settle, here, ends]
    rfl

/-- A word is collected up to its end, and is still open there. -/
theorem run_whole_word {text : List Char} (blank : s.mode = .blank)
    (unfinished : s.isComplete extent = false) (inhabited : text ≠ [])
    (word : ∀ c ∈ text, Token.isWordChar c = true) :
    run extent s text = .ok { s.skip text.length with mode := .word s.offset text.reverse } := by
  cases text with
  | nil => exact absurd rfl inhabited
  | cons c text =>
      obtain ⟨first, rest⟩ := List.forall_mem_cons.1 word
      rw [run_cons, step_word_first blank unfinished first]
      refine (run_word rfl rest).trans ?_
      simp only [skip, List.length_cons, List.reverse_cons]
      rw [Nat.add_right_comm, Nat.add_assoc]

theorem leads_word {text : List Char} {form : Datum} (blank : s.mode = .blank)
    (unfinished : s.isComplete extent = false) (inhabited : text ≠ [])
    (word : ∀ c ∈ text, Token.isWordChar c = true) (h : Token.ofWord? text = some form) :
    Leads extent s text ((s.skip text.length).give form) := by
  refine ⟨_, run_whole_word blank unfinished inhabited word, awaits_word rfl ?_⟩
  rwa [List.reverse_reverse]

theorem leads_keyword {name : String} (blank : s.mode = .blank)
    (unfinished : s.isComplete extent = false) (word : Token.IsWord name) :
    Leads extent s (':' :: name.toList) ((s.skip (name.toList.length + 1)).give (.keyword name)) := by
  have first : s.step extent ':' = .ok { s.skip 1 with mode := .keyword s.offset [] } :=
    step_of_blank blank unfinished (by decide) (by decide)
  have read : run extent s (':' :: name.toList) =
      .ok { s.skip (name.toList.length + 1) with mode := .keyword s.offset name.toList.reverse } := by
    rw [run_cons, first]
    refine (run_keyword rfl word.2).trans ?_
    simp only [skip, List.append_nil]
    rw [Nat.add_right_comm, Nat.add_assoc]
  have inhabited : name.toList.reverse ≠ [] := by simpa using word.1
  have awaits := @awaits_keyword extent _ s.offset _ (rfl : State.mode
    { s.skip (name.toList.length + 1) with mode := .keyword s.offset name.toList.reverse } = _) inhabited
  rw [List.reverse_reverse, String.ofList_toList] at awaits
  exact ⟨_, read, awaits⟩

/-- A character of a string is read back, whether it is escaped or not. -/
theorem run_escapeChar {chars : List Char} (here : s.mode = .string chars) (c : Char) :
    run extent s (escapeChar c) =
      .ok { s.skip (escapeChar c).length with mode := .string (c :: chars) } := by
  obtain ⟨offset, mode, levels, forms⟩ := s
  obtain rfl : mode = .string chars := here
  unfold escapeChar
  split
  next same => subst same; rfl
  next noQuote =>
    split
    next same => subst same; rfl
    next noBackslash =>
      split
      next same => subst same; rfl
      · split
        next same => subst same; rfl
        · split
          next same => subst same; rfl
          · simp only [run_cons, step, noQuote, noBackslash]
            rfl

theorem run_escaped {chars : List Char} (here : s.mode = .string chars) (text : List Char) :
    run extent s (text.flatMap escapeChar) =
      .ok { s.skip (text.flatMap escapeChar).length with mode := .string (text.reverse ++ chars) } := by
  induction text generalizing s chars with
  | nil =>
      obtain ⟨offset, mode, levels, forms⟩ := s
      obtain rfl : mode = .string chars := here
      rfl
  | cons c text ih =>
      rw [List.flatMap_cons, run_append, run_escapeChar here]
      refine (ih rfl).trans ?_
      simp only [skip, List.length_append, List.reverse_cons, List.append_assoc, List.singleton_append]
      rw [Nat.add_assoc]

/-- A string is read and given at its closing quote. -/
theorem run_string (blank : s.mode = .blank) (unfinished : s.isComplete extent = false)
    (text : String) :
    run extent s (MapKey.string text).chars =
      .ok ((s.skip (MapKey.string text).chars.length).give (.string text)) := by
  have first : s.step extent '"' = .ok { s.skip 1 with mode := .string [] } :=
    step_of_blank blank unfinished (by decide) (by decide)
  rw [MapKey.chars, run_cons, first]
  refine (run_append _ _ _).trans ?_
  rw [run_escaped rfl]
  rw [List.append_nil]
  refine congrArg Except.ok ?_
  rw [List.reverse_reverse, String.ofList_toList]
  simp only [give, advance, skip, List.length_cons, List.length_append, List.length_nil]
  rw [Nat.add_assoc, Nat.add_assoc, Nat.add_comm 1]

end Tokens

namespace State

/-- The state inside a compound form that was opened in `s`. -/
def within (s : State) (opening : Opening) (items : List Datum) : State :=
  { s with mode := .blank, levels := ⟨opening, items⟩ :: s.levels }

theorem within_levels (s : State) (opening : Opening) (items : List Datum) :
    (s.within opening items).levels = ⟨opening, items⟩ :: s.levels := rfl

theorem isComplete_within (s : State) (opening : Opening) (items : List Datum) :
    (s.within opening items).isComplete extent = false := by
  simp [isComplete, within]

theorem within_give {opening : Opening} (bracket : ∀ name, opening ≠ .mark name) (s : State)
    (items : List Datum) (form : Datum) :
    (s.within opening items).give form = s.within opening (form :: items) := by
  cases opening with
  | mark name => exact absurd rfl (bracket name)
  | round | square | curly start => rfl

/-- A form that is given inside a compound form is its next item. -/
theorem leads_given {opening : Opening} (bracket : ∀ name, opening ≠ .mark name) {s : State}
    {before : List Datum} {text : List Char} {count : Nat} {form : Datum}
    (h : Leads extent (s.within opening before) text
      (((s.within opening before).skip count).give form)) :
    Leads extent (s.within opening before) text
      ((s.skip count).within opening (form :: before)) := by
  rw [← within_give bracket]
  exact h

theorem enter_of_room {s : State} (room : s.levels.length + 1 < nestingLimit) (opening : Opening) :
    s.enter opening = .ok (s.within opening []) :=
  if_neg (Nat.not_le.2 room)

theorem enter_of_full {s : State} (full : nestingLimit ≤ s.levels.length + 1) (opening : Opening) :
    s.enter opening = .error ⟨.tooDeep, s.offset⟩ :=
  if_pos full

/-- A closing bracket neither separates nor goes on with a word. -/
theorem stops_of_closing {c : Char} (closing : c ∈ [')', ']', '\x7d']) :
    Token.isSeparator c = false ∧ Token.isWordChar c = false := by
  have all : [')', ']', '\x7d'].all (fun c => !Token.isSeparator c && !Token.isWordChar c) = true := by
    decide
  simpa using List.all_eq_true.1 all c closing

/-- What a closing bracket does is decided by the innermost open form. -/
theorem step_closing {c : Char} (closing : c ∈ [')', ']', '\x7d']) (s : State) (opening : Opening)
    (items : List Datum) : (s.within opening items).step extent c =
      match close? c ⟨opening, items⟩ with
      | some (.ok form) => .ok ((s.skip 1).give form)
      | some (.error fault) => .error fault
      | none => .error ⟨.unexpected, s.offset⟩ := by
  have differs : ∀ d, d ∉ [')', ']', '\x7d'] → c ≠ d := by
    rintro d other rfl
    exact other closing
  obtain ⟨separates, word⟩ := stops_of_closing closing
  rw [step_of_blank rfl (isComplete_within s opening items) separates (differs _ (by decide)),
    stepToken.eq_9 _ c (differs _ (by decide)) (differs _ (by decide)) (differs _ (by decide))
      (differs _ (by decide)) (differs _ (by decide)) (differs _ (by decide)) (differs _ (by decide))
      (differs _ (by decide)), if_neg (by simp [word])]
  rfl

/-- A closing bracket gives the form that it closes. -/
theorem step_close {c : Char} (closing : c ∈ [')', ']', '\x7d']) {opening : Opening}
    {items : List Datum} {form : Datum} (closes : close? c ⟨opening, items⟩ = some (.ok form))
    (s : State) : (s.within opening items).step extent c = .ok ((s.skip 1).give form) := by
  rw [step_closing closing, closes]

end State

/-- A bracket, what stands in it and the bracket that closes it are read as one form. -/
theorem leads_compound {s : State} {first last : Char} {opening : Opening} {body : List Char}
    {items : List Datum} {form : Datum} (room : s.levels.length + 1 < nestingLimit)
    (opens : s.step extent first = (s.skip 1).enter opening)
    (inside : Leads extent ((s.skip 1).within opening []) body
      (((s.skip 1).skip body.length).within opening (items.reverse ++ [])))
    (closing : last ∈ [')', ']', '\x7d'])
    (closes : close? last ⟨opening, items.reverse⟩ = some (.ok form)) :
    Leads extent s (first :: (body ++ [last]))
      ((s.skip (first :: (body ++ [last])).length).give form) := by
  rw [List.append_nil] at inside
  refine .of_run ?_
  rw [run_cons, opens, enter_of_room (s := s.skip 1) room]
  refine (inside.run_cons (stops_of_closing closing).2).trans ?_
  rw [run_cons, step_close closing closes, skip_skip, skip_skip]
  simp only [List.length_cons, List.length_append, List.length_nil]
  rw [Nat.add_comm 1]
  rfl

/-- A bracket is refused if too much is open already, or if what stands in it is refused. -/
theorem refuses_compound {s : State} {first : Char} {opening : Opening} {body : List Char}
    (opens : s.step extent first = (s.skip 1).enter opening)
    (inside : s.levels.length + 1 < nestingLimit →
      Refuses extent ((s.skip 1).within opening []) body) (rest : List Char) :
    Refuses extent s (first :: (body ++ rest)) := by
  by_cases room : s.levels.length + 1 < nestingLimit
  · obtain ⟨fault, failed, cause⟩ := (inside room).append rest
    refine ⟨fault, ?_, cause⟩
    rw [run_cons, opens, enter_of_room (s := s.skip 1) room]
    exact failed
  · refine ⟨⟨.tooDeep, s.offset + 1⟩, ?_, rfl⟩
    rw [run_cons, opens, enter_of_full (s := s.skip 1) (Nat.le_of_not_lt room)]
    rfl

end Reader

end AnnotatedLisp
