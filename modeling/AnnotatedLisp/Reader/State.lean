import AnnotatedLisp.Error
import AnnotatedLisp.Reader.Token

/-!
The reader as a machine that takes one character at a time.

Its state holds the forms that are finished, the compound forms that are still open around the
current place, and the token that is being read. Reading a text is a fold of `step`, so what is read
from a text and what follows it is read by going on from the state that the text leads to.

A compound form is opened by a bracket and closed by its counterpart; a mark such as the quote opens a
form that closes itself after one item. No more than 63 of them may be open at once.
-/

namespace AnnotatedLisp

namespace Reader

/-- How many forms that are open at once are too many. -/
def nestingLimit : Nat := 64

inductive Extent where
  | oneForm
  | allForms
  deriving DecidableEq

inductive Cause where
  | tooDeep
  | oddEntries
  | badKey
  | unknownEscape
  | unexpected
  | trailing
  | endOfText
  deriving DecidableEq

/-- A cause and the place that it is told for. -/
structure Fault where
  cause : Cause
  offset : Nat
  deriving DecidableEq

inductive Opening where
  | round
  | square
  | curly (start : Nat)
  | mark (name : String)
  deriving DecidableEq

/-- A compound form that is not yet closed, its latest item first. -/
structure Level where
  opening : Opening
  items : List Datum

/-- The token at the current place. Its characters so far are kept with the latest first. -/
inductive Mode where
  | blank
  | word (start : Nat) (chars : List Char)
  | keyword (start : Nat) (chars : List Char)
  | string (chars : List Char)
  | escape (start : Nat) (chars : List Char)
  | tilde
  | comment (start : Nat)
  | commentReturn (start : Nat)
  deriving DecidableEq

/-- How far the reading has come. The innermost open form and the latest finished one are first. -/
structure State where
  offset : Nat
  mode : Mode
  levels : List Level
  forms : List Datum

namespace State

def start : State :=
  ⟨0, .blank, [], []⟩

/-- Adds a finished form to the innermost open form, or to the finished ones. A mark that got its
item is finished as well. -/
def deliver (form : Datum) : List Level → List Datum → List Level × List Datum
  | [], forms => ([], form :: forms)
  | ⟨.mark name, _⟩ :: levels, forms =>
    deliver (.seq () .list [.symbol name, form]) levels forms
  | level :: levels, forms => ({ level with items := form :: level.items } :: levels, forms)

def give (s : State) (form : Datum) : State :=
  let (levels, forms) := deliver form s.levels s.forms
  { s with mode := .blank, levels, forms }

/-- Opens a compound form, unless too many are open. -/
def enter (s : State) (opening : Opening) : Except Fault State :=
  if nestingLimit ≤ s.levels.length + 1 then .error ⟨.tooDeep, s.offset⟩
  else .ok { s with mode := .blank, levels := ⟨opening, []⟩ :: s.levels }

/-- The map that the items between curly brackets make, a later entry of a key replacing an earlier
one. -/
def mapOf (items : List Datum) : Except Cause Datum :=
  if items.length % 2 = 1 then .error .oddEntries
  else match Form.pairs items with
    | .ok entries => .ok (.map () (Entries.ofList entries))
    | .error _ => .error .badKey

/-- The form that closing a level gives, if the character is the one that closes it. -/
def close? (c : Char) (level : Level) : Option (Except Fault Datum) :=
  match level.opening, c with
  | .round, ')' => some (.ok (.seq () .list level.items.reverse))
  | .square, ']' => some (.ok (.seq () .vector level.items.reverse))
  | .curly start, '\x7d' =>
    match mapOf level.items.reverse with
    | .ok form => some (.ok form)
    | .error cause => some (.error ⟨cause, start⟩)
  | _, _ => none

/-- Whether all that was asked for has been read. -/
def isComplete (s : State) (extent : Extent) : Bool :=
  extent == .oneForm && s.levels.isEmpty && !s.forms.isEmpty

/-- Something at `offset` that cannot stand there: it is left over if all has been read. -/
def misplaced (s : State) (extent : Extent) (offset : Nat) : Fault :=
  ⟨if s.isComplete extent then .trailing else .unexpected, offset⟩

def advance (s : State) : State :=
  { s with offset := s.offset + 1 }

def stepToken (s : State) (c : Char) : Except Fault State :=
  match c with
  | '(' => s.advance.enter .round
  | '[' => s.advance.enter .square
  | '\x7b' => s.advance.enter (.curly (s.offset + 1))
  | '\x27' => s.advance.enter (.mark "quote")
  | '\x60' => s.advance.enter (.mark "quasiquote")
  | '~' => .ok { s.advance with mode := .tilde }
  | '"' => .ok { s.advance with mode := .string [] }
  | ':' => .ok { s.advance with mode := .keyword s.offset [] }
  | c =>
    if Token.isWordChar c then .ok { s.advance with mode := .word s.offset [c] }
    else match s.levels with
      | [] => .error ⟨.unexpected, s.offset⟩
      | level :: levels =>
        match close? c level with
        | some (.ok form) => .ok ({ s.advance with levels }.give form)
        | some (.error fault) => .error fault
        | none => .error ⟨.unexpected, s.offset⟩

def stepBlank (s : State) (extent : Extent) (c : Char) : Except Fault State :=
  if Token.isSeparator c then .ok s.advance
  else if c = ';' then .ok { s.advance with mode := .comment s.offset }
  else if s.isComplete extent then .error ⟨.trailing, s.offset⟩
  else s.stepToken c

def endWord (s : State) (start : Nat) (chars : List Char) : Except Fault State :=
  match Token.ofWord? chars.reverse with
  | some form => .ok (s.give form)
  | none => .error ⟨.unexpected, start⟩

def endKeyword (s : State) (start : Nat) (chars : List Char) : Except Fault State :=
  if chars.isEmpty then .error ⟨.unexpected, start⟩
  else .ok (s.give (.keyword (String.ofList chars.reverse)))

def step (extent : Extent) (s : State) (c : Char) : Except Fault State :=
  match s.mode with
  | .blank => s.stepBlank extent c
  | .word start chars =>
    if Token.isWordChar c then .ok { s.advance with mode := .word start (c :: chars) }
    else do (← s.endWord start chars).stepBlank extent c
  | .keyword start chars =>
    if Token.isWordChar c then .ok { s.advance with mode := .keyword start (c :: chars) }
    else do (← s.endKeyword start chars).stepBlank extent c
  | .string chars =>
    if c = '"' then .ok (s.advance.give (.string (String.ofList chars.reverse)))
    else if c = '\\' then .ok { s.advance with mode := .escape s.offset chars }
    else .ok { s.advance with mode := .string (c :: chars) }
  | .escape start chars =>
    match Token.unescape? c with
    | some meant => .ok { s.advance with mode := .string (meant :: chars) }
    | none => .error ⟨.unknownEscape, start⟩
  | .tilde =>
    if c = '@' then s.advance.enter (.mark "splice-unquote")
    else do (← s.enter (.mark "unquote")).stepBlank extent c
  | .comment start =>
    if c = '\n' then .ok { s.advance with mode := .blank }
    else if c = '\r' then .ok { s.advance with mode := .commentReturn start }
    else .ok s.advance
  | .commentReturn start =>
    if c = '\n' then .ok { s.advance with mode := .blank }
    else .error (s.misplaced extent start)

def settle (extent : Extent) (s : State) : Except Fault State :=
  match s.mode with
  | .blank | .comment _ => .ok s
  | .word start chars => s.endWord start chars
  | .keyword start chars => s.endKeyword start chars
  | .string _ | .escape _ _ => .error ⟨.endOfText, s.offset⟩
  | .tilde => s.enter (.mark "unquote")
  | .commentReturn start => .error (s.misplaced extent start)

/-- The forms of a text that ends here, none of which may be open. -/
def finish (extent : Extent) (s : State) : Except Fault (List Datum) := do
  let s ← s.settle extent
  if s.levels.isEmpty then .ok s.forms.reverse else .error ⟨.endOfText, s.offset⟩

end State

end Reader

end AnnotatedLisp
