import AnnotatedLisp.Proofs.Reader.Run

/-!
The reader as rules that call one another.

A rule reads something at the front of a text and leaves the rest of it, or it refuses the text at some place.
Where a rule refuses, another one may be tried, unless the refusal is final. This module has the rules of the
language, from the classes of characters up to whole texts; each goes on with what another has left, and
nothing in them bounds how far they go.
-/

namespace AnnotatedLisp

namespace Reader

/-- What a refusal tells. Most of them only tell their place. -/
inductive Code where
  | tooDeep
  | oddEntries
  | badKey
  | unknownEscape
  /-- A rule that is repeated as often as possible has read nothing. -/
  | idle
  | mismatch
  deriving DecidableEq

/-- A refusal, with what is left of the text at its place. After a final one no other rule is tried. -/
structure Refusal where
  final : Bool
  code : Code
  rest : List Char
  deriving DecidableEq

abbrev Rule (α : Type) := StateT (List Char) (Except Refusal) α

namespace Rule

variable {α β : Type}

/-- What the rule reads in what is left of the text after something is skipped. -/
def behind (skip : List Char → List Char) (rule : Rule α) : Rule α :=
  fun text => rule (skip text)

/-- What the first rule reads, or else the second. -/
def either (first second : Rule α) : Rule α := fun text =>
  match first text with
  | .ok read => .ok read
  | .error refusal => if refusal.final then .error refusal else second text

/-- Makes every refusal final. -/
def cut (rule : Rule α) : Rule α := fun text =>
  match rule text with
  | .ok read => .ok read
  | .error refusal => .error { refusal with final := true }

/-- What the rule reads, or nothing. -/
def optional (rule : Rule α) : Rule Unit :=
  either (do let _ ← rule) (pure ())

/-- What is meant by what the rule reads, in front of the rest. If nothing is, the text is refused as a whole. -/
def interpreted (rule : Rule α) (meaning : α → List Char → Option β) : Rule β := fun text =>
  match rule text with
  | .ok (read, rest) =>
    match meaning read rest with
    | some meant => .ok (meant, rest)
    | none => .error ⟨false, .mismatch, text⟩
  | .error refusal => .error refusal

/-- The characters that the rule reads. -/
def recognized (rule : Rule α) : Rule (List Char) := fun text =>
  match rule text with
  | .ok (_, rest) => .ok (text.take (text.length - rest.length), rest)
  | .error refusal => .error refusal

/-- What the rule reads as often as it can be repeated. It has to read something each time. -/
def many (rule : Rule α) (text : List Char) : Except Refusal (List α × List Char) :=
  match rule text with
  | .error refusal => if refusal.final then .error refusal else .ok ([], text)
  | .ok (first, rest) =>
    if rest.length < text.length then do
      let (others, last) ← many rule rest
      return (first :: others, last)
    else .error ⟨false, .idle, text⟩
termination_by text.length

def char (c : Char) : Rule Unit
  | [] => .error ⟨false, .mismatch, []⟩
  | d :: rest => if d = c then .ok ((), rest) else .error ⟨false, .mismatch, d :: rest⟩

def tag (word : List Char) : Rule Unit := fun text =>
  if word.isPrefixOf text then .ok ((), text.drop word.length) else .error ⟨false, .mismatch, text⟩

/-- One or more characters of a class, as many as there are. -/
def span (p : Char → Bool) : Rule (List Char) := fun text =>
  if (text.takeWhile p).isEmpty then .error ⟨false, .mismatch, text⟩
  else .ok (text.takeWhile p, text.dropWhile p)

end Rule

namespace Descent

open Rule

def staysOnLine (c : Char) : Bool :=
  c != '\n' && c != '\r'

/-- What is left of the line, up to a line feed with or without a carriage return in front of it, or to the
end of the text. -/
def line : Rule Unit := fun text =>
  match text.dropWhile staysOnLine with
  | '\r' :: rest =>
    if rest.head? = some '\n' then .ok ((), '\r' :: rest) else .error ⟨false, .mismatch, text⟩
  | rest => .ok ((), rest)

def comment : Rule Unit := do
  char ';'
  line

def separators : Rule Unit := do
  let _ ← span Token.isSeparator

def gap : Rule Unit :=
  either separators comment

/-- What is left of the text behind all separators and comments at its front. -/
def afterGaps (text : List Char) : List Char :=
  match many gap text with
  | .ok (_, rest) => rest
  | .error _ => text

def sign : Rule Unit :=
  optional (either (char '-') (char '+'))

/-- Digits, and then, if there are more behind it, a point and digits. -/
def decimal : Rule Unit := do
  let _ ← span Decimal.isDigit
  optional do
    char '.'
    span Decimal.isDigit

def numeral : Rule (List Char) :=
  recognized do
    sign
    decimal

/-- A number, behind which no word goes on. -/
def number : Rule Datum :=
  interpreted numeral fun spelled rest =>
    if rest.head?.any Token.isWordChar then none else (Number.ofChars? spelled).map .number

def symbol : Rule Datum :=
  interpreted (span Token.isWordChar) fun name _ =>
    if Number.looksNumeric name then none else some (Token.named (String.ofList name))

def keyword : Rule Datum := do
  char ':'
  return .keyword (String.ofList (← span Token.isWordChar))

/-- What is left of a string literal, whose characters so far are kept with the latest first. -/
def stringRest (chars : List Char) : Rule Datum
  | [] => .error ⟨true, .mismatch, []⟩
  | c :: rest =>
    if c = '"' then .ok (.string (String.ofList chars.reverse), rest)
    else if c = '\\' then
      match rest with
      | [] => .error ⟨true, .mismatch, []⟩
      | d :: last =>
        match Token.unescape? d with
        | some meant => stringRest (meant :: chars) last
        | none => .error ⟨true, .unknownEscape, c :: rest⟩
    else stringRest (c :: chars) rest

def string : Rule Datum := do
  char '"'
  stringRest []

/-- What is no compound form. -/
def token : Rule Datum :=
  either number <| either string <| either keyword symbol

section Compound

-- How the forms inside are read, unless too many are open.
variable (inner : Option (Rule Datum))

/-- The rule for the forms inside, which is refused if too many are open. -/
def nested : Rule (Rule Datum) := fun text =>
  match inner with
  | some item => .ok (item, text)
  | none => .error ⟨true, .tooDeep, text⟩

/-- The items up to and including the closing bracket. -/
def items (closing : Char) : Rule (List Datum) := do
  let item ← nested inner
  let items ← many (behind afterGaps item)
  cut (behind afterGaps (char closing))
  return items

def list : Rule Datum := do
  char '('
  return .seq () .list (← items inner ')')

def vector : Rule Datum := do
  char '['
  return .seq () .vector (← items inner ']')

/-- What is left of a map. If its items do not make one, they are refused as a whole. -/
def entries : Rule Datum := fun text =>
  match items inner '\x7d' text with
  | .ok (items, rest) =>
    match State.mapOf items with
    | .ok form => .ok (form, rest)
    | .error .oddEntries => .error ⟨true, .oddEntries, text⟩
    | .error _ => .error ⟨true, .badKey, text⟩
  | .error refusal => .error refusal

def map : Rule Datum := do
  char '\x7b'
  entries inner

/-- A mark, read as the name of the operator that it stands for. -/
def mark (word : List Char) (name : String) : Rule String := do
  tag word
  return name

def markName : Rule String :=
  either (mark ['~', '@'] "splice-unquote") <| either (mark ['~'] "unquote") <|
    either (mark ['\x60'] "quasiquote") (mark ['\x27'] "quote")

def underMark : Rule Datum := do
  let name ← markName
  let item ← nested inner
  let form ← cut (behind afterGaps item)
  return .seq () .list [.symbol name, form]

/-- A form, the forms in it read by another rule. -/
def formOf : Rule Datum :=
  either (underMark inner) <| either (list inner) <| either (vector inner) <| either (map inner) token

end Compound

/-- A form with so many others open around it. -/
def form (depth : Nat) : Rule Datum :=
  formOf (if nestingLimit ≤ depth + 1 then none else some (form (depth + 1)))
termination_by nestingLimit - depth

/-- How the forms inside a form are read that has so many others around it. -/
def inner? (depth : Nat) : Option (Rule Datum) :=
  if nestingLimit ≤ depth + 1 then none else some (form (depth + 1))

/-- The rules for tokens and forms. -/
inductive Kind where
  | number
  | symbol
  | keyword
  | string
  | list
  | vector
  | map
  | underMark
  | form

def Kind.rule (depth : Nat) : Kind → Rule Datum
  | number => Descent.number
  | symbol => Descent.symbol
  | keyword => Descent.keyword
  | string => Descent.string
  | list => Descent.list (inner? depth)
  | vector => Descent.vector (inner? depth)
  | map => Descent.map (inner? depth)
  | underMark => Descent.underMark (inner? depth)
  | form => Descent.form depth

section Texts

/-- The forms of a text that starts with no gap, unless more than so many rounds are needed. -/
def collect : (rounds : Nat) → (text : List Char) → Option (Except Refusal (List Datum))
  | _, [] => some (.ok [])
  | 0, _ :: _ => none
  | rounds + 1, text =>
    match form 0 text with
    | .error refusal => some (.error refusal)
    | .ok (first, rest) =>
      (collect rounds (afterGaps rest)).map fun outcome => outcome.map (first :: ·)

/-- The characters in so many bytes at the front of a text, unless they are no whole characters of it. -/
def slice? : (text : List Char) → (bytes : Nat) → Option (List Char)
  | _, 0 => some []
  | [], _ + 1 => none
  | c :: text, bytes + 1 =>
    if c.utf8Size ≤ bytes + 1 then (slice? text (bytes + 1 - c.utf8Size)).map (c :: ·) else none

/-- How many characters there are in front of what is left of a text. They take the bytes of the text but for
those of the rest, unless these are more. -/
def offset? (text rest : List Char) : Option Nat :=
  if ParseError.byteCount rest ≤ ParseError.byteCount text then
    (slice? text (ParseError.byteCount text - ParseError.byteCount rest)).map List.length
  else none

end Texts

end Descent

open Descent

/-- What a refusal is told for. One that only tells its place is told for what stands there. -/
def Refusal.cause (refusal : Refusal) : Cause :=
  match refusal.code with
  | .tooDeep => .tooDeep
  | .oddEntries => .oddEntries
  | .badKey => .badKey
  | .unknownEscape => .unknownEscape
  | .idle | .mismatch => if refusal.rest.isEmpty then .endOfText else .unexpected

def Refusal.fault? (text : List Char) (refusal : Refusal) : Option Fault :=
  (offset? text refusal.rest).map fun offset => ⟨refusal.cause, offset⟩

namespace Descent

/-- The forms of a text, or the fault in it. There is neither if it takes more rounds than the text has
characters, or if there is no counting the characters in front of the fault. -/
def forms? (text : List Char) : Option (Except Fault (List Datum)) := do
  match ← collect text.length (afterGaps text) with
  | .ok forms => return .ok forms
  | .error refusal => return .error (← refusal.fault? text)

/-- The one form of a text, or the fault in it. -/
def oneForm? (text : List Char) : Option (Except Fault Datum) :=
  match form 0 (afterGaps text) with
  | .error refusal => do return .error (← refusal.fault? text)
  | .ok (form, rest) =>
    match afterGaps rest with
    | [] => some (.ok form)
    | rest => do return .error ⟨.trailing, ← offset? text rest⟩

def readAll (text : String) : Option (Except ParseError (List Datum)) :=
  (forms? text.toList).map fun outcome => outcome.mapError fun fault => fault.toError text.toList

def read (text : String) : Option (Except ParseError Datum) :=
  (oneForm? text.toList).map fun outcome => outcome.mapError fun fault => fault.toError text.toList

end Descent

end Reader

end AnnotatedLisp
