import AnnotatedLisp.Proofs.Descent.Choice
import Mathlib.Data.List.Infix

/-!
Every rule makes progress and keeps to the text.

What a rule leaves is an end of the text, and so is the place at which it refuses the text. The rules for tokens
and forms besides read at least one character. Hence what is repeated is never a rule that reads nothing.
-/

namespace AnnotatedLisp

namespace Reader

variable {α β : Type}

/-- What a rule leaves is an end of the text, and so is the place at which it refuses the text. -/
inductive Within (text : List Char) : Except Refusal (α × List Char) → Prop
  | ok {a : α} {rest : List Char} (left : rest <:+ text) : Within text (.ok (a, rest))
  | error {refusal : Refusal} (place : refusal.rest <:+ text) (busy : refusal.code ≠ .idle) :
      Within text (.error refusal)

/-- Besides, a rule that does not refuse the text reads something. -/
inductive Progress (text : List Char) : Except Refusal (α × List Char) → Prop
  | ok {a : α} {rest : List Char} (left : rest <:+ text) (shorter : rest.length < text.length) :
      Progress text (.ok (a, rest))
  | error {refusal : Refusal} (place : refusal.rest <:+ text) (busy : refusal.code ≠ .idle) :
      Progress text (.error refusal)

section Outcomes

variable {text rest : List Char} {outcome : Except Refusal (α × List Char)}

theorem Progress.within (h : Progress text outcome) : Within text outcome := by
  cases h with
  | ok left shorter => exact .ok left
  | error place busy => exact .error place busy

theorem Within.mono (h : Within rest outcome) (suffix : rest <:+ text) : Within text outcome := by
  cases h with
  | ok left => exact .ok (left.trans suffix)
  | error place busy => exact .error (place.trans suffix) busy

theorem Progress.mono (h : Progress rest outcome) (suffix : rest <:+ text) : Progress text outcome := by
  cases h with
  | ok left shorter => exact .ok (left.trans suffix) (Nat.lt_of_lt_of_le shorter suffix.length_le)
  | error place busy => exact .error (place.trans suffix) busy

/-- What goes on with less than the text makes progress in the text. -/
theorem Within.shorter (h : Within rest outcome) (suffix : rest <:+ text)
    (shorter : rest.length < text.length) : Progress text outcome := by
  cases h with
  | ok left => exact .ok (left.trans suffix) (Nat.lt_of_le_of_lt left.length_le shorter)
  | error place busy => exact .error (place.trans suffix) busy

end Outcomes

namespace Rule

/-- Whatever the text, the rule keeps to it. -/
def Keeps (rule : Rule α) : Prop :=
  ∀ text, Within text (rule text)

/-- Whatever the text, the rule makes progress in it. -/
def Advances (rule : Rule α) : Prop :=
  ∀ text, Progress text (rule text)

variable {rule first second : Rule α}

theorem Advances.keeps (h : rule.Advances) : rule.Keeps :=
  fun text => (h text).within

theorem keeps_pure (a : α) : Keeps (pure a : Rule α) :=
  fun _ => .ok List.suffix_rfl

theorem Keeps.bind {next : α → Rule β} (h : rule.Keeps) (h' : ∀ a, (next a).Keeps) :
    Keeps (rule >>= next) := by
  intro text
  have kept := h text
  rw [bind_apply]
  generalize rule text = outcome at kept
  cases kept with
  | ok left => exact (h' _ _).mono left
  | error place busy => exact .error place busy

theorem Advances.bind {next : α → Rule β} (h : rule.Advances) (h' : ∀ a, (next a).Keeps) :
    Advances (rule >>= next) := by
  intro text
  have advanced := h text
  rw [bind_apply]
  generalize rule text = outcome at advanced
  cases advanced with
  | ok left shorter => exact (h' _ _).shorter left shorter
  | error place busy => exact .error place busy

theorem Keeps.bindAdvances {next : α → Rule β} (h : rule.Keeps) (h' : ∀ a, (next a).Advances) :
    Advances (rule >>= next) := by
  intro text
  have kept := h text
  rw [bind_apply]
  generalize rule text = outcome at kept
  cases kept with
  | ok left => exact (h' _ _).mono left
  | error place busy => exact .error place busy

theorem Keeps.either (h : first.Keeps) (h' : second.Keeps) : Keeps (first.either second) := by
  intro text
  have kept := h text
  unfold Rule.either
  generalize first text = outcome at kept ⊢
  cases kept with
  | ok left => exact .ok left
  | error place busy =>
      dsimp only
      split
      · exact .error place busy
      · exact h' text

theorem Advances.either (h : first.Advances) (h' : second.Advances) :
    Advances (first.either second) := by
  intro text
  have advanced := h text
  unfold Rule.either
  generalize first text = outcome at advanced ⊢
  cases advanced with
  | ok left shorter => exact .ok left shorter
  | error place busy =>
      dsimp only
      split
      · exact .error place busy
      · exact h' text

theorem Keeps.cut (h : rule.Keeps) : rule.cut.Keeps := by
  intro text
  have kept := h text
  unfold Rule.cut
  generalize rule text = outcome at kept ⊢
  cases kept with
  | ok left => exact .ok left
  | error place busy => exact .error place busy

theorem Keeps.optional (h : rule.Keeps) : rule.optional.Keeps :=
  (h.bind fun _ => keeps_pure ()).either (keeps_pure ())

theorem Advances.recognized (h : rule.Advances) : rule.recognized.Advances := by
  intro text
  have advanced := h text
  unfold Rule.recognized
  generalize rule text = outcome at advanced ⊢
  cases advanced with
  | ok left shorter => exact .ok left shorter
  | error place busy => exact .error place busy

theorem Advances.interpreted (h : rule.Advances) (meaning : α → List Char → Option β) :
    (rule.interpreted meaning).Advances := by
  intro text
  have advanced := h text
  unfold Rule.interpreted
  generalize rule text = outcome at advanced ⊢
  cases advanced with
  | ok left shorter =>
      dsimp only
      split
      · exact .ok left shorter
      · exact .error List.suffix_rfl nofun
  | error place busy => exact .error place busy

theorem Advances.behind {skip : List Char → List Char} (suffix : ∀ text, skip text <:+ text)
    (h : rule.Advances) : (rule.behind skip).Advances :=
  fun text => (h (skip text)).mono (suffix text)

/-- A rule that makes progress can be repeated. -/
theorem Advances.many (h : rule.Advances) : Keeps (many rule) := by
  intro text
  fun_induction Rule.many rule text with
  | case1 text refusal refused final =>
      have advanced := h text
      rw [refused] at advanced
      cases advanced with
      | error place busy => exact .error place busy
  | case2 text refusal refused final => exact .ok List.suffix_rfl
  | case3 text first rest read shorter ih =>
      have advanced := h text
      rw [read] at advanced
      cases advanced with
      | ok left =>
          generalize Rule.many rule rest = outcome at ih
          cases ih with
          | ok left' => exact .ok (left'.trans left)
          | error place busy => exact .error (place.trans left) busy
  | case4 text first rest read idle =>
      have advanced := h text
      rw [read] at advanced
      cases advanced with
      | ok left shorter => exact absurd shorter idle

theorem advances_char (c : Char) : (char c).Advances := by
  intro text
  cases text with
  | nil => exact .error List.suffix_rfl nofun
  | cons d rest =>
      rw [char]
      split
      · exact .ok (List.suffix_cons d rest) (Nat.lt_succ_self _)
      · exact .error List.suffix_rfl nofun

theorem advances_tag {word : List Char} (inhabited : word ≠ []) : (tag word).Advances := by
  intro text
  unfold tag
  split
  next here =>
    have := (List.isPrefixOf_iff_prefix.1 here).length_le
    have := List.length_pos_iff.2 inhabited
    refine .ok (List.drop_suffix _ _) ?_
    rw [List.length_drop]
    omega
  · exact .error List.suffix_rfl nofun

theorem advances_span (p : Char → Bool) : (span p).Advances := by
  intro text
  unfold span
  split
  · exact .error List.suffix_rfl nofun
  next inhabited =>
    have split := congrArg List.length (List.takeWhile_append_dropWhile (p := p) (l := text))
    rw [List.length_append] at split
    have : (text.takeWhile p).length ≠ 0 := by simpa using inhabited
    exact .ok (List.dropWhile_suffix p) (by omega)

end Rule

namespace Descent

open Rule

theorem keeps_line : line.Keeps := by
  intro text
  have suffix := List.dropWhile_suffix (l := text) staysOnLine
  unfold line
  split
  next rest here =>
    rw [here] at suffix
    split
    · exact .ok suffix
    · exact .error List.suffix_rfl nofun
  next => exact .ok suffix

theorem advances_gap : gap.Advances :=
  ((advances_span _).bind fun _ => keeps_pure ()).either ((advances_char ';').bind fun _ => keeps_line)

theorem afterGaps_suffix (text : List Char) : afterGaps text <:+ text := by
  have kept := advances_gap.many text
  unfold afterGaps
  generalize many gap text = outcome at kept ⊢
  cases kept with
  | ok left => exact left
  | error => exact List.suffix_rfl

theorem advances_numeral : numeral.Advances := by
  have sign : sign.Keeps := ((advances_char '-').either (advances_char '+')).keeps.optional
  have fraction : (optional do char '.'; span Decimal.isDigit).Keeps :=
    ((advances_char '.').bind fun _ => (advances_span _).keeps).keeps.optional
  exact (sign.bindAdvances fun _ => (advances_span _).bind fun _ => fraction).recognized

theorem advances_number : number.Advances :=
  advances_numeral.interpreted _

theorem advances_symbol : symbol.Advances :=
  (advances_span _).interpreted _

theorem advances_keyword : keyword.Advances :=
  (advances_char ':').bind fun _ => (advances_span _).keeps.bind fun _ => keeps_pure _

theorem keeps_stringRest (chars : List Char) : (stringRest chars).Keeps := by
  intro text
  fun_induction stringRest chars text with
  | case1 => exact .error List.suffix_rfl nofun
  | case2 => exact .ok (List.suffix_cons _ _)
  | case3 => exact .error List.nil_suffix nofun
  | case4 chars c rest meant unescaped quote ih =>
      exact ih.mono ((List.suffix_cons c rest).trans (List.suffix_cons _ _))
  | case5 => exact .error List.suffix_rfl nofun
  | case6 chars c rest quote backslash ih => exact ih.mono (List.suffix_cons _ _)

theorem advances_string : string.Advances :=
  (advances_char '"').bind fun _ => keeps_stringRest []

theorem advances_token : token.Advances :=
  advances_number.either <| advances_string.either <| advances_keyword.either advances_symbol

theorem advances_mark {word : List Char} (inhabited : word ≠ []) (name : String) :
    (mark word name).Advances :=
  (advances_tag inhabited).bind fun _ => keeps_pure name

theorem advances_markName : markName.Advances :=
  have mark {c : Char} {word : List Char} (name : String) : (mark (c :: word) name).Advances :=
    advances_mark (List.cons_ne_nil c word) name
  (mark _).either <| (mark _).either <| (mark _).either (mark _)

section Compound

variable {inner : Option (Rule Datum)}

theorem keeps_nested {next : Rule Datum → Rule α} (h : ∀ item ∈ inner, (next item).Keeps) :
    Keeps (nested inner >>= next) := by
  intro text
  cases inner with
  | none => exact .error List.suffix_rfl nofun
  | some item => exact h item rfl text

variable (advances : ∀ item ∈ inner, item.Advances)

include advances

theorem keeps_items (closing : Char) : (items inner closing).Keeps := by
  refine keeps_nested fun item mem => ?_
  refine ((advances item mem).behind afterGaps_suffix).many.bind fun _ => ?_
  exact ((advances_char closing).behind afterGaps_suffix).keeps.cut.bind fun _ => keeps_pure _

theorem advances_list : (list inner).Advances :=
  (advances_char '(').bind fun _ => (keeps_items advances ')').bind fun _ => keeps_pure _

theorem advances_vector : (vector inner).Advances :=
  (advances_char '[').bind fun _ => (keeps_items advances ']').bind fun _ => keeps_pure _

theorem keeps_entries : (entries inner).Keeps := by
  intro text
  have kept := keeps_items advances '\x7d' text
  unfold entries
  generalize items inner '\x7d' text = outcome at kept ⊢
  cases kept with
  | ok left =>
      dsimp only
      split
      · exact .ok left
      · exact .error List.suffix_rfl nofun
      · exact .error List.suffix_rfl nofun
  | error place busy => exact .error place busy

theorem advances_map : (map inner).Advances :=
  (advances_char '\x7b').bind fun _ => keeps_entries advances

theorem advances_underMark : (underMark inner).Advances := by
  refine advances_markName.bind fun name => keeps_nested fun item mem => ?_
  exact ((advances item mem).behind afterGaps_suffix).keeps.cut.bind fun _ => keeps_pure _

theorem advances_formOf : (formOf inner).Advances :=
  (advances_underMark advances).either <| (advances_list advances).either <|
    (advances_vector advances).either <| (advances_map advances).either advances_token

end Compound

theorem form_eq (depth : Nat) : form depth = formOf (inner? depth) := by
  rw [form, inner?]

theorem advances_form (depth : Nat) : (form depth).Advances := by
  induction depth using form.induct with
  | case1 depth ih =>
      rw [form_eq]
      refine advances_formOf fun item mem => ?_
      rw [inner?] at mem
      split at mem
      · cases mem
      next room =>
        cases mem
        exact ih room

theorem advances_inner (depth : Nat) : ∀ item ∈ inner? depth, item.Advances := by
  intro item mem
  rw [inner?] at mem
  split at mem
  · cases mem
  · cases mem
    exact advances_form (depth + 1)

/-- Each rule for a token or form reads something of the text, or it refuses the text at some place in it. -/
theorem advances_rule (kind : Kind) (depth : Nat) : (kind.rule depth).Advances := by
  have inner := advances_inner depth
  cases kind with
  | number => exact advances_number
  | symbol => exact advances_symbol
  | keyword => exact advances_keyword
  | string => exact advances_string
  | list => exact advances_list inner
  | vector => exact advances_vector inner
  | map => exact advances_map inner
  | underMark => exact advances_underMark inner
  | form => exact advances_form depth

end Descent

end Reader

end AnnotatedLisp
