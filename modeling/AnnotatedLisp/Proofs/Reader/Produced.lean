import AnnotatedLisp.Proofs.Form.Spelled
import AnnotatedLisp.Proofs.Reader.Run

/-!
What the reader produces.

Every form that is read is legible, and wherever it stands there is room for what is nested in it. Both hold
for the forms of every state that reading passes through, since each character keeps them.
-/

namespace AnnotatedLisp

namespace Form

/-- Where so many forms are open, the form can be written out and read back. -/
structure Fits (depth : Nat) (form : Datum) : Prop where
  legible : form.Legible
  room : depth + form.nesting < Reader.nestingLimit

theorem readable_of_legible_key {ι : Type} {key : MapKey} (h : (key.toForm : Form ι).Legible) :
    key.Readable := by
  cases key with
  | string text => trivial
  | keyword name =>
      simp only [MapKey.toForm, Legible, spelled, Readable] at h
      exact h

end Form

namespace Reader

open Form

variable {extent : Extent}

/-- The compound forms that are open are not too many, and what they have so far fits into them. -/
inductive Fitting : List Level → Prop
  | nil : Fitting []
  | cons {level : Level} {levels : List Level} (room : levels.length + 1 < nestingLimit)
      (marked : ∀ name, level.opening = .mark name → Token.IsSymbol name)
      (items : ∀ item ∈ level.items, item.Fits (levels.length + 1)) (outer : Fitting levels) :
      Fitting (level :: levels)

/-- The characters of the token so far are those of a word, if it is a word or keyword. -/
def Mode.Worded : Mode → Prop
  | .word _ chars => chars ≠ [] ∧ ∀ c ∈ chars, Token.isWordChar c = true
  | .keyword _ chars => ∀ c ∈ chars, Token.isWordChar c = true
  | _ => True

/-- All that has been read so far fits where it stands. -/
structure State.Produced (s : State) : Prop where
  levels : Fitting s.levels
  forms : ∀ form ∈ s.forms, form.Fits 0
  token : s.mode.Worded

/-- The state is as the reader produces it, unless there is a fault in what was read. -/
def Produces : Except Fault State → Prop
  | .ok t => t.Produced
  | .error _ => True

section Atoms

variable {depth : Nat} (room : depth < nestingLimit)

include room

theorem fits_symbol {name : String} (symbol : Token.IsSymbol name) :
    (Form.symbol name : Datum).Fits depth :=
  ⟨by simpa only [Legible, spelled, Readable], by simpa only [nesting]⟩

theorem fits_string (text : String) : (Form.string text : Datum).Fits depth :=
  ⟨by simp only [Legible, spelled, Readable], by simpa only [nesting]⟩

/-- A word that stands for something stands for an atom that is written as a word. -/
theorem fits_word {word : List Char} {form : Datum} (inhabited : word ≠ [])
    (chars : ∀ c ∈ word, Token.isWordChar c = true) (h : Token.ofWord? word = some form) :
    form.Fits depth := by
  unfold Token.ofWord? at h
  split at h
  next value number =>
    cases h
    refine ⟨?_, by simpa only [nesting]⟩
    rw [Legible, spelled]
    split
    next finite => rwa [Readable]
    next infinite =>
      rw [Readable]
      exact Number.isSymbol_text infinite
  · split at h
    · cases h
    next noNumber =>
      cases h
      unfold Token.named
      split
      · exact ⟨by simp only [Legible, spelled, Readable], by simpa only [nesting]⟩
      next noNil =>
        split
        · exact ⟨by simp only [Legible, spelled, Readable], by simpa only [nesting]⟩
        next noTrue =>
          split
          · exact ⟨by simp only [Legible, spelled, Readable], by simpa only [nesting]⟩
          next noFalse =>
            refine fits_symbol room ⟨⟨?_, ?_⟩, ?_, ?_⟩
            · simpa using inhabited
            · simpa using chars
            · simp [noNil, noTrue, noFalse]
            · simpa using noNumber

end Atoms

namespace State

theorem deliver_fits {given : Datum} {levels : List Level} {forms : List Datum} (fitting : Fitting levels)
    (fits : given.Fits levels.length) (done : ∀ form ∈ forms, form.Fits 0) :
    Fitting (deliver given levels forms).1 ∧
      ∀ form ∈ (deliver given levels forms).2, form.Fits 0 := by
  induction fitting generalizing given with
  | nil =>
      have fits : given.Fits 0 := fits
      exact ⟨.nil, List.forall_mem_cons.2 ⟨fits, done⟩⟩
  | @cons level levels room marked items outer ih =>
      obtain ⟨opening, before⟩ := level
      have collected : ∀ item ∈ given :: before, item.Fits (levels.length + 1) :=
        List.forall_mem_cons.2 ⟨fits, items⟩
      cases opening with
      | mark name =>
          -- The mark and its item make a list that is nested one deeper than the item.
          have name : (Form.symbol name : Datum).Fits levels.length :=
            fits_symbol (Nat.lt_of_succ_lt room) (marked name rfl)
          have legible := fits.legible
          have room := fits.room
          refine ih ⟨legible_seq_iff.2 ?_, ?_⟩
          · exact List.forall_mem_cons.2 ⟨name.legible, List.forall_mem_cons.2 ⟨legible, nofun⟩⟩
          · rw [List.length_cons] at room
            simp only [nesting, itemsNesting]
            omega
      | round | square | curly start => exact ⟨.cons room marked collected outer, done⟩

theorem mapOf_fits {items : List Datum} {form : Datum} {depth : Nat} (room : depth + 1 < nestingLimit)
    (fits : ∀ item ∈ items, item.Fits (depth + 1)) (h : mapOf items = .ok form) : form.Fits depth := by
  unfold mapOf at h
  split at h
  · cases h
  · split at h
    next entries paired =>
      cases h
      have members : ∀ entry ∈ Entries.ofList entries, entry.1.toForm ∈ items ∧ entry.2 ∈ items :=
        fun entry mem => mem_of_pairs paired entry (Entries.mem_ofList mem)
      refine ⟨legible_map (Entries.sorted_ofList _) fun entry mem => ?_, ?_⟩
      · obtain ⟨key, value⟩ := members entry mem
        exact ⟨readable_of_legible_key (fits _ key).legible, (fits _ value).legible⟩
      · have bound : entriesNesting (Entries.ofList entries) ≤ nestingLimit - (depth + 2) :=
          entriesNesting_le_iff.2 fun entry mem => by
            have := (fits _ (members entry mem).2).room
            omega
        rw [nesting]
        omega
    · cases h

theorem close?_fits {c : Char} {level : Level} {form : Datum} {depth : Nat}
    (room : depth + 1 < nestingLimit) (fits : ∀ item ∈ level.items, item.Fits (depth + 1))
    (h : close? c level = some (.ok form)) : form.Fits depth := by
  have fits : ∀ item ∈ level.items.reverse, item.Fits (depth + 1) :=
    fun item mem => fits item (List.mem_reverse.1 mem)
  have bracket : ∀ kind, (Form.seq () kind level.items.reverse).Fits depth := by
    refine fun kind => ⟨legible_seq_iff.2 fun item mem => (fits item mem).legible, ?_⟩
    have bound : itemsNesting level.items.reverse ≤ nestingLimit - (depth + 2) :=
      itemsNesting_le_iff.2 fun item mem => by
        have := (fits item mem).room
        omega
    rw [nesting]
    omega
  unfold close? at h
  split at h
  · cases h
    exact bracket .list
  · cases h
    exact bracket .vector
  · split at h
    next made =>
      cases h
      exact mapOf_fits room fits made
    · cases h
  · cases h

end State

/-- What is open leaves room for a form. -/
theorem Fitting.length_lt {levels : List Level} (h : Fitting levels) :
    levels.length < nestingLimit := by
  cases h with
  | nil => decide
  | cons room => exact room

namespace State

variable {s : State}

namespace Produced

theorem give (h : s.Produced) {form : Datum} (fits : form.Fits s.levels.length) :
    (s.give form).Produced := by
  have delivered := deliver_fits h.levels fits h.forms
  exact ⟨delivered.1, delivered.2, trivial⟩

theorem advance (h : s.Produced) : s.advance.Produced :=
  ⟨h.levels, h.forms, h.token⟩

/-- A token is begun or goes on. -/
theorem goOn (h : s.Produced) {mode : Mode} (worded : mode.Worded) :
    ({ s.advance with mode } : State).Produced :=
  ⟨h.levels, h.forms, worded⟩

theorem enter (h : s.Produced) {opening : Opening}
    (marked : ∀ name, opening = .mark name → Token.IsSymbol name) : Produces (s.enter opening) := by
  unfold State.enter
  split
  · trivial
  next room => exact ⟨.cons (Nat.lt_of_not_le room) marked nofun h.levels, h.forms, trivial⟩

theorem enterMark (h : s.Produced) {name : String} (symbol : Token.IsSymbol name) :
    Produces (s.enter (.mark name)) :=
  h.enter fun _ same => Opening.mark.inj same ▸ symbol

theorem endWord (h : s.Produced) {start : Nat} {chars : List Char} (here : s.mode = .word start chars) :
    Produces (s.endWord start chars) := by
  have worded := h.token
  rw [here] at worded
  unfold State.endWord
  split
  next form word =>
    refine h.give (fits_word h.levels.length_lt ?_ ?_ word)
    · simpa using worded.1
    · simpa using worded.2
  · trivial

theorem endKeyword (h : s.Produced) {start : Nat} {chars : List Char}
    (here : s.mode = .keyword start chars) : Produces (s.endKeyword start chars) := by
  have worded := h.token
  rw [here] at worded
  unfold State.endKeyword
  split
  · trivial
  next inhabited =>
    rw [Mode.Worded] at worded
    have word : Token.IsWord (String.ofList chars.reverse) := by
      refine ⟨?_, ?_⟩
      · simpa using inhabited
      · simpa using worded
    have room := h.levels.length_lt
    exact h.give ⟨by simpa only [Legible, spelled, Readable], by simpa only [nesting]⟩

theorem stepToken (h : s.Produced) (c : Char) : Produces (s.stepToken c) := by
  unfold State.stepToken
  split
  · exact h.advance.enter nofun
  · exact h.advance.enter nofun
  · exact h.advance.enter nofun
  · exact h.advance.enterMark (by decide)
  · exact h.advance.enterMark (by decide)
  · exact h.goOn trivial
  · exact h.goOn trivial
  · exact h.goOn nofun
  · split
    next word =>
      exact h.goOn ⟨List.cons_ne_nil _ _, List.forall_mem_singleton.2 word⟩
    · split
      · trivial
      next level levels here =>
        have fitting := h.levels
        rw [here] at fitting
        cases fitting with
        | cons room _ items outer =>
            split
            next form closed =>
              have outside : ({ s.advance with levels } : State).Produced := ⟨outer, h.forms, h.token⟩
              exact outside.give (close?_fits room items closed)
            · trivial
            · trivial

theorem stepBlank (h : s.Produced) (c : Char) : Produces (s.stepBlank extent c) := by
  unfold State.stepBlank
  split
  · exact h.advance
  · split
    · exact h.goOn trivial
    · split
      · trivial
      · exact h.stepToken c

/-- A token is ended by the character after it. -/
theorem bind {ended : Except Fault State} (h : Produces ended) (c : Char) :
    Produces (ended >>= fun t => t.stepBlank extent c) := by
  cases ended with
  | error fault => trivial
  | ok t => exact stepBlank h c

theorem step (h : s.Produced) (c : Char) : Produces (s.step extent c) := by
  have worded := h.token
  unfold State.step
  split
  · exact h.stepBlank c
  next start chars here =>
    rw [here] at worded
    split
    next word => exact h.goOn ⟨List.cons_ne_nil _ _, List.forall_mem_cons.2 ⟨word, worded.2⟩⟩
    · exact bind (h.endWord here) c
  next start chars here =>
    rw [here] at worded
    split
    next word => exact h.goOn (List.forall_mem_cons.2 ⟨word, worded⟩)
    · exact bind (h.endKeyword here) c
  · split
    · exact h.advance.give (fits_string h.levels.length_lt _)
    · split
      · exact h.goOn trivial
      · exact h.goOn trivial
  · split
    · exact h.goOn trivial
    · trivial
  · split
    · exact h.advance.enterMark (by decide)
    · exact bind (h.enterMark (by decide)) c
  · split
    · exact h.goOn trivial
    · split
      · exact h.goOn trivial
      · exact h.advance
  · split
    · exact h.goOn trivial
    · trivial

theorem settle (h : s.Produced) : Produces (s.settle extent) := by
  unfold State.settle
  split
  · exact h
  · exact h
  next here => exact h.endWord here
  next here => exact h.endKeyword here
  · trivial
  · trivial
  · exact h.enterMark (by decide)
  · trivial

end Produced

end State

theorem produces_run (text : List Char) {s : State} (h : s.Produced) :
    Produces (run extent s text) := by
  induction text generalizing s with
  | nil => exact h
  | cons c text ih =>
      have stepped := @State.Produced.step extent s h c
      rw [run_cons]
      cases step : s.step extent c with
      | error fault => trivial
      | ok t =>
          rw [step] at stepped
          exact ih stepped

/-- Every form that is read from a text is legible, and no more than 63 are nested in each other. -/
theorem fits_of_scan {text : List Char} {forms : List Datum} (h : scan extent text = .ok forms) :
    ∀ form ∈ forms, form.Fits 0 := by
  have start : State.start.Produced := ⟨.nil, nofun, trivial⟩
  have read := @produces_run extent text .start start
  unfold scan at h
  cases ran : run extent .start text with
  | error fault =>
      rw [ran] at h
      cases h
  | ok s =>
      rw [ran] at h read
      have settled := @State.Produced.settle extent s read
      change s.finish extent = .ok forms at h
      unfold State.finish at h
      cases settle : s.settle extent with
      | error fault =>
          rw [settle] at h
          cases h
      | ok t =>
          rw [settle] at h settled
          change (if t.levels.isEmpty then Except.ok t.forms.reverse else _) = _ at h
          split at h
          · cases h
            exact fun form mem => settled.forms form (List.mem_reverse.1 mem)
          · cases h

end Reader

end AnnotatedLisp
