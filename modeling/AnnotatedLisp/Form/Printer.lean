import AnnotatedLisp.Form.Basic
import AnnotatedLisp.Text.Quoted

/-!
The text of a form. Data is printed as it is read; functions and native operations, which have no
literal, are printed in angle brackets.
-/

namespace AnnotatedLisp

namespace Form

variable {ι : Type}

mutual

def print (out : String) : Form ι → String
  | nil => out ++ "nil"
  | bool value => out ++ (if value then "true" else "false")
  | number value => out ++ Number.text value
  | string text => out ++ quote text
  | keyword name => out ++ ":" ++ name
  | symbol name => out ++ name
  | seq _ .list items => (printItems "" (out ++ "(") items) ++ ")"
  | seq _ .vector items => (printItems "" (out ++ "[") items) ++ "]"
  | map _ entries => (printEntries "" (out ++ "\x7b") entries) ++ "\x7d"
  | native operation => out ++ "#<builtin-function:" ++ operation.name ++ ">"
  | fn _ _ _ _ false => out ++ "#<function>"
  | fn _ _ _ _ true => out ++ "#<macro>"

/-- Appends the texts of forms, a space between any two and `gap` before the first. -/
def printItems (gap out : String) : List (Form ι) → String
  | [] => out
  | item :: items => printItems " " (print (out ++ gap) item) items

/-- Appends the texts of entries, a space between any two and `gap` before the first. -/
def printEntries (gap out : String) : List (MapKey × Form ι) → String
  | [] => out
  | (key, value) :: entries =>
    let out := out ++ gap
    let out := match key with
      | .string text => out ++ quote text
      | .keyword name => out ++ ":" ++ name
    printEntries " " (print (out ++ " ") value) entries

end

def text (form : Form ι) : String :=
  print "" form

end Form

end AnnotatedLisp
