import AnnotatedLisp.Proofs.Reader.Run
import Mathlib.Data.List.Forall2

/-!
What is read does not depend on where it stands.

States that differ in nothing but places go on alike: a text leads them to such states again, or to faults
of the same cause, and where it ends they hold the same forms.
-/

namespace AnnotatedLisp

namespace Reader

variable {extent : Extent}

inductive Opening.Alike : Opening → Opening → Prop
  | round : Alike .round .round
  | square : Alike .square .square
  | curly (start start' : Nat) : Alike (.curly start) (.curly start')
  | mark (name : String) : Alike (.mark name) (.mark name)

theorem Opening.Alike.refl (opening : Opening) : opening.Alike opening := by
  cases opening <;> constructor

structure Level.Alike (a b : Level) : Prop where
  opening : a.opening.Alike b.opening
  items : a.items = b.items

inductive Mode.Alike : Mode → Mode → Prop
  | blank : Alike .blank .blank
  | word (start start' : Nat) (chars : List Char) : Alike (.word start chars) (.word start' chars)
  | keyword (start start' : Nat) (chars : List Char) :
      Alike (.keyword start chars) (.keyword start' chars)
  | string (chars : List Char) : Alike (.string chars) (.string chars)
  | escape (start start' : Nat) (chars : List Char) :
      Alike (.escape start chars) (.escape start' chars)
  | tilde : Alike .tilde .tilde
  | comment (start start' : Nat) : Alike (.comment start) (.comment start')
  | commentReturn (start start' : Nat) : Alike (.commentReturn start) (.commentReturn start')

/-- States that differ in nothing but places. -/
structure State.Alike (s t : State) : Prop where
  mode : s.mode.Alike t.mode
  levels : List.Forall₂ Level.Alike s.levels t.levels
  forms : s.forms = t.forms

/-- Results that are alike, or faults of the same cause. -/
inductive Agree {α : Type} (alike : α → α → Prop) : Except Fault α → Except Fault α → Prop
  | ok {a b : α} (same : alike a b) : Agree alike (.ok a) (.ok b)
  | error {f g : Fault} (same : f.cause = g.cause) : Agree alike (.error f) (.error g)

theorem Agree.bind {α β : Type} {alike : α → α → Prop} {alike' : β → β → Prop}
    {x y : Except Fault α} {f g : α → Except Fault β} (first : Agree alike x y)
    (rest : ∀ a b, alike a b → Agree alike' (f a) (g b)) : Agree alike' (x >>= f) (y >>= g) := by
  cases first with
  | ok same => exact rest _ _ same
  | error same => exact .error same

theorem Agree.ok_iff {α : Type} {x y : Except Fault α} (h : Agree Eq x y) (a : α) :
    x = .ok a ↔ y = .ok a := by
  cases h with
  | ok same => rw [same]
  | error => simp

/-- A level is closed by the same characters, wherever it was opened. -/
theorem Level.Alike.close? {a b : Level} (h : a.Alike b) (c : Char) :
    Option.Rel (Agree Eq) (State.close? c a) (State.close? c b) := by
  obtain ⟨opening, items⟩ := a
  obtain ⟨opening', items'⟩ := b
  obtain ⟨openings, same⟩ := h
  dsimp only at openings same
  subst same
  cases openings with
  | mark name => exact .none
  | round | square =>
      unfold State.close?
      split <;> first | contradiction | exact .some (.ok rfl) | exact .none
  | curly start start' =>
      by_cases closing : c = '\x7d'
      · subst closing
        simp only [State.close?]
        cases State.mapOf items.reverse with
        | ok form => exact .some (.ok rfl)
        | error cause => exact .some (.error rfl)
      · simp [State.close?, closing]

namespace State

theorem deliver_alike {levels levels' : List Level} (h : List.Forall₂ Level.Alike levels levels')
    (form : Datum) (forms : List Datum) :
    List.Forall₂ Level.Alike (deliver form levels forms).1 (deliver form levels' forms).1 ∧
      (deliver form levels forms).2 = (deliver form levels' forms).2 := by
  induction h generalizing form with
  | nil => exact ⟨.nil, rfl⟩
  | @cons a b _ _ first rest ih =>
      obtain ⟨opening, items⟩ := a
      obtain ⟨opening', items'⟩ := b
      obtain ⟨openings, same⟩ := first
      dsimp only at openings same
      subst same
      cases openings with
      | mark name => exact ih _
      | round => exact ⟨.cons ⟨.round, rfl⟩ rest, rfl⟩
      | square => exact ⟨.cons ⟨.square, rfl⟩ rest, rfl⟩
      | curly start start' => exact ⟨.cons ⟨.curly start start', rfl⟩ rest, rfl⟩

namespace Alike

variable {s t : State} (h : s.Alike t)

include h

theorem isComplete_eq : s.isComplete extent = t.isComplete extent := by
  have levels := h.levels
  unfold isComplete
  rw [h.forms]
  generalize s.levels = a at levels ⊢
  generalize t.levels = b at levels ⊢
  cases levels <;> rfl

theorem advance : s.advance.Alike t.advance :=
  ⟨h.mode, h.levels, h.forms⟩

theorem give (form : Datum) : (s.give form).Alike (t.give form) := by
  obtain ⟨levels, forms⟩ := deliver_alike h.levels form t.forms
  refine ⟨.blank, ?_, ?_⟩
  · simpa only [State.give, h.forms] using levels
  · simpa only [State.give, h.forms] using forms

theorem enter {opening opening' : Opening} (openings : opening.Alike opening') :
    Agree Alike (s.enter opening) (t.enter opening') := by
  unfold State.enter
  rw [h.levels.length_eq]
  split
  · exact .error rfl
  · exact .ok ⟨.blank, .cons ⟨openings, rfl⟩ h.levels, h.forms⟩

theorem endWord (start start' : Nat) (chars : List Char) :
    Agree Alike (s.endWord start chars) (t.endWord start' chars) := by
  unfold State.endWord
  cases Token.ofWord? chars.reverse with
  | some form => exact .ok (h.give form)
  | none => exact .error rfl

theorem endKeyword (start start' : Nat) (chars : List Char) :
    Agree Alike (s.endKeyword start chars) (t.endKeyword start' chars) := by
  unfold State.endKeyword
  split
  · exact .error rfl
  · exact .ok (h.give _)

theorem stepToken (c : Char) : Agree Alike (s.stepToken c) (t.stepToken c) := by
  unfold State.stepToken
  split
  · exact h.advance.enter .round
  · exact h.advance.enter .square
  · exact h.advance.enter (.curly _ _)
  · exact h.advance.enter (.mark _)
  · exact h.advance.enter (.mark _)
  · exact .ok ⟨.tilde, h.levels, h.forms⟩
  · exact .ok ⟨.string [], h.levels, h.forms⟩
  · exact .ok ⟨.keyword _ _ [], h.levels, h.forms⟩
  · split
    · exact .ok ⟨.word _ _ _, h.levels, h.forms⟩
    · have levels := h.levels
      generalize s.levels = a at levels ⊢
      generalize t.levels = b at levels ⊢
      cases levels with
      | nil => exact .error rfl
      | @cons level level' outer outer' first rest =>
          have outside : State.Alike { s.advance with levels := outer } { t.advance with levels := outer' } :=
            ⟨h.mode, rest, h.forms⟩
          have closed := first.close? c
          dsimp only
          generalize State.close? c level = x at closed ⊢
          generalize State.close? c level' = y at closed ⊢
          cases closed with
          | none => exact .error rfl
          | some agree =>
              cases agree with
              | error same => exact .error same
              | ok same => exact same ▸ .ok (outside.give _)

theorem stepBlank (c : Char) : Agree Alike (s.stepBlank extent c) (t.stepBlank extent c) := by
  unfold State.stepBlank
  rw [h.isComplete_eq]
  split
  · exact .ok h.advance
  · split
    · exact .ok ⟨.comment _ _, h.levels, h.forms⟩
    · split
      · exact .error rfl
      · exact h.stepToken c

theorem misplaced (start start' : Nat) :
    (s.misplaced extent start).cause = (t.misplaced extent start').cause := by
  unfold State.misplaced
  rw [h.isComplete_eq]

theorem step (c : Char) : Agree Alike (s.step extent c) (t.step extent c) := by
  have modes := h.mode
  have ends : ∀ {x y : Except Fault State}, Agree Alike x y →
      Agree Alike (x >>= fun u => u.stepBlank extent c) (y >>= fun u => u.stepBlank extent c) :=
    fun agree => agree.bind fun _ _ alike => alike.stepBlank c
  unfold State.step
  generalize s.mode = m at modes ⊢
  generalize t.mode = m' at modes ⊢
  cases modes with
  | blank => exact h.stepBlank c
  | word start start' chars =>
      dsimp only
      split
      · exact .ok ⟨.word _ _ _, h.levels, h.forms⟩
      · exact ends (h.endWord start start' chars)
  | keyword start start' chars =>
      dsimp only
      split
      · exact .ok ⟨.keyword _ _ _, h.levels, h.forms⟩
      · exact ends (h.endKeyword start start' chars)
  | string chars =>
      dsimp only
      split
      · exact .ok (h.advance.give _)
      · split
        · exact .ok ⟨.escape _ _ _, h.levels, h.forms⟩
        · exact .ok ⟨.string _, h.levels, h.forms⟩
  | escape start start' chars =>
      dsimp only
      split
      · exact .ok ⟨.string _, h.levels, h.forms⟩
      · exact .error rfl
  | tilde =>
      dsimp only
      split
      · exact h.advance.enter (.mark _)
      · exact ends (h.enter (.mark _))
  | comment start start' =>
      dsimp only
      split
      · exact .ok ⟨.blank, h.levels, h.forms⟩
      · split
        · exact .ok ⟨.commentReturn _ _, h.levels, h.forms⟩
        · exact .ok h.advance
  | commentReturn start start' =>
      dsimp only
      split
      · exact .ok ⟨.blank, h.levels, h.forms⟩
      · exact .error (h.misplaced start start')

theorem settle : Agree Alike (s.settle extent) (t.settle extent) := by
  have modes := h.mode
  unfold State.settle
  generalize s.mode = m at modes ⊢
  generalize t.mode = m' at modes ⊢
  cases modes with
  | blank | comment => exact .ok h
  | word start start' chars => exact h.endWord start start' chars
  | keyword start start' chars => exact h.endKeyword start start' chars
  | string | escape => exact .error rfl
  | tilde => exact h.enter (.mark _)
  | commentReturn start start' => exact .error (h.misplaced start start')

theorem finish : Agree Eq (s.finish extent) (t.finish extent) := by
  unfold State.finish
  refine h.settle.bind fun u v alike => ?_
  have levels := alike.levels
  generalize u.levels = a at levels ⊢
  generalize v.levels = b at levels ⊢
  cases levels with
  | nil => exact .ok (congrArg List.reverse alike.forms)
  | cons => exact .error rfl

end Alike

end State

theorem run_alike {s t : State} (h : s.Alike t) (text : List Char) :
    Agree State.Alike (run extent s text) (run extent t text) := by
  induction text generalizing s t with
  | nil => exact .ok h
  | cons c text ih =>
      rw [run_cons, run_cons]
      exact (h.step c).bind fun _ _ alike => ih alike

theorem scanFrom_alike {s t : State} (h : s.Alike t) (text : List Char) :
    Agree Eq (scanFrom extent s text) (scanFrom extent t text) :=
  (run_alike h text).bind fun _ _ alike => alike.finish

end Reader

end AnnotatedLisp
