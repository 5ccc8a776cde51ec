import AnnotatedLisp.Form.Basic
import AnnotatedLisp.Text.Alphanumeric
import AnnotatedLisp.Text.Blank

/-!
Tokens: the classes of characters in a program text, and what a word stands for.

A word is a maximal run of word characters. It is a number, one of three names with a value, or a
symbol; it is none of these if it starts as a number does without being one.
-/

namespace AnnotatedLisp

namespace Token

/-- The characters besides letters and numbers that words are made of. -/
def wordMarks : List Char :=
  ['+', '-', '*', '/', '<', '>', '=', '!', '?', '_', '$', '%', '&', '.', '|']

def isWordChar (c : Char) : Bool :=
  isAlphanumeric c || wordMarks.contains c

/-- Whether a character only separates: white space or a comma. -/
def isSeparator (c : Char) : Bool :=
  isBlank c || c == ','

/-- What a name stands for: a value if it is one of three, else the symbol. -/
def named (name : String) : Datum :=
  if name = "nil" then .nil
  else if name = "true" then .bool true
  else if name = "false" then .bool false
  else .symbol name

def ofWord? (word : List Char) : Option Datum :=
  match Number.ofChars? word with
  | some x => some (.number x)
  | none => if Number.looksNumeric word then none else some (named (String.ofList word))

/-- The character that an escape in a string literal stands for. -/
def unescape? : Char → Option Char
  | 'n' => some '\n'
  | 't' => some '\t'
  | 'r' => some '\r'
  | '\\' => some '\\'
  | '"' => some '"'
  | _ => none

end Token

end AnnotatedLisp
