import AnnotatedLisp.Form.Basic
import AnnotatedLisp.Text.Quoted

/-!
The description of a form: a text that names the kind of every node, for tools that show what a form
is made of. Unlike the printed text it is not meant to be read back.
-/

namespace AnnotatedLisp

def MapKey.describe : MapKey → String
  | .string text => "String(" ++ describeQuoted text ++ ")"
  | .keyword name => "Keyword(" ++ describeQuoted name ++ ")"

namespace Form

variable {ι : Type}

mutual

def addDescription (out : String) : Form ι → String
  | nil => out ++ "Nil"
  | bool value => out ++ (if value then "Bool(true)" else "Bool(false)")
  | number value => out ++ "Number(" ++ Number.text value ++ ")"
  | string text => out ++ "String(" ++ describeQuoted text ++ ")"
  | keyword name => out ++ "Keyword(" ++ name ++ ")"
  | symbol name => out ++ "Symbol(" ++ name ++ ")"
  | seq _ .list items => (addItems "" (out ++ "List(") items) ++ ")"
  | seq _ .vector items => (addItems "" (out ++ "Vector(") items) ++ ")"
  | map _ entries => (addEntries "" (out ++ "\x7b") entries) ++ "\x7d"
  | native operation => out ++ "BuiltinFunction(" ++ operation.name ++ ")"
  | fn _ params body _ isMacro =>
    let out := addDescription (out ++ "Function(params=") params
    let out := addDescription (out ++ ", body=") body
    out ++ (if isMacro then ", macro=true)" else ", macro=false)")

/-- Appends the descriptions of forms, a comma between any two and `gap` before the first. -/
def addItems (gap out : String) : List (Form ι) → String
  | [] => out
  | item :: items => addItems ", " (addDescription (out ++ gap) item) items

/-- Appends the descriptions of entries, a comma between any two and `gap` before the first. -/
def addEntries (gap out : String) : List (MapKey × Form ι) → String
  | [] => out
  | (key, value) :: entries =>
    addEntries ", " (addDescription (out ++ gap ++ key.describe ++ ": ") value) entries

end

def description (form : Form ι) : String :=
  addDescription "" form

end Form

end AnnotatedLisp
