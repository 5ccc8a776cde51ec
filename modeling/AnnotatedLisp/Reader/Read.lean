import AnnotatedLisp.Reader.State

/-!
Reading texts: all forms of a text, or the one form that it holds, and whether a text only breaks off.
-/

namespace AnnotatedLisp

namespace Reader

namespace Fault

def kind (fault : Fault) : ParseErrorKind :=
  match fault.cause with
  | .tooDeep => .tooDeeplyNested
  | .oddEntries | .badKey | .unknownEscape | .unexpected => .invalidSyntax
  | .trailing => .trailingContent
  | .endOfText => .incomplete

def message (fault : Fault) (text : List Char) : String :=
  match fault.cause with
  | .tooDeep => "Expression too deeply nested (max depth: " ++ toString nestingLimit ++ ")"
  | .oddEntries => "Map literal requires an even number of forms"
  | .badKey => "Map keys must be strings or keywords"
  | .unknownEscape => "Unknown escape sequence in string"
  | .unexpected =>
    "Invalid syntax near '" ++ String.ofList ((text.drop fault.offset).take 10) ++ "'"
  | .trailing =>
    "Unexpected remaining input: '" ++ trimEnd (String.ofList (text.drop fault.offset)) ++ "'"
  | .endOfText => "Unexpected end of input"

def toError (fault : Fault) (text : List Char) : ParseError :=
  .atOffset fault.kind (fault.message text) text fault.offset

end Fault

def run (extent : Extent) (s : State) (text : List Char) : Except Fault State :=
  text.foldlM (State.step extent) s

/-- The forms of a text, or the fault in it. -/
def scan (extent : Extent) (text : List Char) : Except Fault (List Datum) := do
  (← run extent .start text).finish extent

def readAll (text : String) : Except ParseError (List Datum) :=
  match scan .allForms text.toList with
  | .ok forms => .ok forms
  | .error fault => .error (fault.toError text.toList)

def read (text : String) : Except ParseError Datum :=
  match scan .oneForm text.toList with
  | .ok (form :: _) => .ok form
  | .ok [] => .error (Fault.toError ⟨.endOfText, text.toList.length⟩ text.toList)
  | .error fault => .error (fault.toError text.toList)

/-- Whether a text ends inside a form, so that more text may complete it. -/
def isIncomplete (text : String) : Bool :=
  match readAll text with
  | .ok _ => false
  | .error error => error.kind == .incomplete

end Reader

end AnnotatedLisp
