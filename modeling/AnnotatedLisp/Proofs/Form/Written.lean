import AnnotatedLisp.Form.Printer
import AnnotatedLisp.Reader.Token

/-!
Forms that have a text of their own.

A form is readable if its text tells what it is: it is data, its numbers are finite, and its names are made
of word characters and stand for themselves. The text of a form is described here as a list of characters,
without the text that it is appended to.
-/

namespace AnnotatedLisp

/-- A keyword or a symbol can have the name: it is a word. -/
def Token.IsWord (name : String) : Prop :=
  name ≠ "" ∧ ∀ c ∈ name.toList, isWordChar c = true

/-- A word that stands for itself, and for no number or value. -/
structure Token.IsSymbol (name : String) : Prop where
  word : IsWord name
  noValue : name ∉ ["nil", "true", "false"]
  noNumber : Number.looksNumeric name.toList = false

namespace MapKey

def Readable : MapKey → Prop
  | .string _ => True
  | .keyword name => Token.IsWord name

def chars : MapKey → List Char
  | .string text => '"' :: (text.toList.flatMap escapeChar ++ ['"'])
  | .keyword name => ':' :: name.toList

end MapKey

namespace Form

variable {ι : Type}

mutual

/-- The form is data that has a text of its own. The entries of a map are in the order of their keys, as
in every map that is made. -/
def Readable : Form ι → Prop
  | nil | bool _ | string _ => True
  | number value => value.isFinite = true
  | keyword name => Token.IsWord name
  | symbol name => Token.IsSymbol name
  | seq _ _ items => ItemsReadable items
  | map _ entries => Entries.Sorted entries ∧ EntriesReadable entries
  | native _ | fn _ _ _ _ _ => False

def ItemsReadable : List (Form ι) → Prop
  | [] => True
  | item :: items => Readable item ∧ ItemsReadable items

def EntriesReadable : List (MapKey × Form ι) → Prop
  | [] => True
  | (key, value) :: entries => key.Readable ∧ Readable value ∧ EntriesReadable entries

end

mutual

/-- How many lists, vectors and maps are nested in the form, itself included. -/
def nesting : Form ι → Nat
  | seq _ _ items => itemsNesting items + 1
  | map _ entries => entriesNesting entries + 1
  | _ => 0

def itemsNesting : List (Form ι) → Nat
  | [] => 0
  | item :: items => max (nesting item) (itemsNesting items)

def entriesNesting : List (MapKey × Form ι) → Nat
  | [] => 0
  | (_, value) :: entries => max (nesting value) (entriesNesting entries)

end

mutual

/-- The form without its labels. -/
def unlabelled : Form ι → Datum
  | nil => nil
  | bool value => bool value
  | number value => number value
  | string text => string text
  | keyword name => keyword name
  | symbol name => symbol name
  | seq _ kind items => seq () kind (itemsUnlabelled items)
  | map _ entries => map () (entriesUnlabelled entries)
  | native operation => native operation
  | fn _ params body scope isMacro => fn () (unlabelled params) (unlabelled body) scope isMacro

def itemsUnlabelled : List (Form ι) → List Datum
  | [] => []
  | item :: items => unlabelled item :: itemsUnlabelled items

def entriesUnlabelled : List (MapKey × Form ι) → List (MapKey × Datum)
  | [] => []
  | (key, value) :: entries => (key, unlabelled value) :: entriesUnlabelled entries

end

mutual

/-- The characters of the text of a form. -/
def chars : Form ι → List Char
  | nil => ['n', 'i', 'l']
  | bool true => ['t', 'r', 'u', 'e']
  | bool false => ['f', 'a', 'l', 's', 'e']
  | number value => Number.chars value
  | string text => (MapKey.string text).chars
  | keyword name => (MapKey.keyword name).chars
  | symbol name => name.toList
  | seq _ .list items => '(' :: (itemsChars [] items ++ [')'])
  | seq _ .vector items => '[' :: (itemsChars [] items ++ [']'])
  | map _ entries => '\x7b' :: (entriesChars [] entries ++ ['\x7d'])
  | native operation => (text (native operation : Form ι)).toList
  | fn label params body scope isMacro => (text (fn label params body scope isMacro)).toList

def itemsChars (gap : List Char) : List (Form ι) → List Char
  | [] => []
  | item :: items => gap ++ (chars item ++ itemsChars [' '] items)

def entriesChars (gap : List Char) : List (MapKey × Form ι) → List Char
  | [] => []
  | (key, value) :: entries => gap ++ (key.chars ++ ' ' :: (chars value ++ entriesChars [' '] entries))

end

mutual

theorem print_toList (out : String) : ∀ form : Form ι,
    (print out form).toList = out.toList ++ chars form
  | nil | bool true | bool false => by simp [print, chars]
  | number value => by simp [print, chars, Number.text]
  | string text => by simp [print, chars, MapKey.chars, quote]
  | keyword name => by simp [print, chars, MapKey.chars]
  | symbol name => by simp [print, chars]
  | seq _ .list items => by simp [print, chars, printItems_toList "" (out ++ "(") items]
  | seq _ .vector items => by simp [print, chars, printItems_toList "" (out ++ "[") items]
  | map _ entries => by simp [print, chars, printEntries_toList "" (out ++ "\x7b") entries]
  | native operation => by simp [print, chars, text]
  | fn _ _ _ _ isMacro => by cases isMacro <;> simp [print, chars, text]

theorem printItems_toList (gap out : String) : ∀ items : List (Form ι),
    (printItems gap out items).toList = out.toList ++ itemsChars gap.toList items
  | [] => by rw [printItems, itemsChars, List.append_nil]
  | item :: items => by
      rw [printItems, itemsChars, printItems_toList, print_toList, String.toList_append]
      simp

theorem printEntries_toList (gap out : String) : ∀ entries : List (MapKey × Form ι),
    (printEntries gap out entries).toList = out.toList ++ entriesChars gap.toList entries
  | [] => by rw [printEntries, entriesChars, List.append_nil]
  | (.string text, value) :: entries => by
      simp [printEntries, entriesChars, MapKey.chars, quote, printEntries_toList " " _ entries,
        print_toList _ value]
  | (.keyword name, value) :: entries => by
      simp [printEntries, entriesChars, MapKey.chars, printEntries_toList " " _ entries,
        print_toList _ value]

end

theorem text_toList (form : Form ι) : form.text.toList = form.chars :=
  print_toList "" form

end Form

end AnnotatedLisp
