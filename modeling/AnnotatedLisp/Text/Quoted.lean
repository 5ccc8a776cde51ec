import AnnotatedLisp.Text.Printable

/-!
Two ways to write a text between double quotes.

`quote` is what the reader reads back: it escapes the quote, the backslash, line feed, tab and
carriage return, and nothing else. `describeQuoted` is for descriptions: it also escapes every
character that would not be visible by itself.
-/

namespace AnnotatedLisp

def escapeChar (c : Char) : List Char :=
  if c = '"' then ['\\', '"']
  else if c = '\\' then ['\\', '\\']
  else if c = '\n' then ['\\', 'n']
  else if c = '\t' then ['\\', 't']
  else if c = '\r' then ['\\', 'r']
  else [c]

def quote (text : String) : String :=
  String.ofList ('"' :: (text.toList.flatMap escapeChar ++ ['"']))

/-- A character as its code point in lower-case hexadecimal. -/
def escapeCodePoint (c : Char) : List Char :=
  ['\\', 'u', '\x7b'] ++ Nat.toDigits 16 c.toNat ++ ['\x7d']

def describeChar (c : Char) : List Char :=
  if c.toNat = 0 then ['\\', '0']
  else if c = '"' ∨ c = '\\' ∨ c = '\n' ∨ c = '\t' ∨ c = '\r' then escapeChar c
  else if isExtender c || !isPrintable c then escapeCodePoint c
  else [c]

/-- The described form of a text, between double quotes. -/
def describeQuoted (text : String) : String :=
  String.ofList ('"' :: (text.toList.flatMap describeChar ++ ['"']))

end AnnotatedLisp
