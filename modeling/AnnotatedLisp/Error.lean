import AnnotatedLisp.Arity
import AnnotatedLisp.Form.Printer

/-!
Errors: what can go wrong in reading and in evaluation, and how it is told.

Every error can be caught by a program. A thrown value is caught as itself; of every other error the
program sees the message.
-/

namespace AnnotatedLisp

/-- The four ways in which a text can fail to be read. -/
inductive ParseErrorKind where
  | invalidSyntax
  | incomplete
  | tooDeeplyNested
  | trailingContent
  deriving DecidableEq

/-- A failure to read a text, with an excerpt of the text around the place of the failure. -/
structure ParseError where
  kind : ParseErrorKind
  message : String
  context : Option String
  deriving DecidableEq

namespace ParseError

/-- How many characters before the place of a failure an excerpt starts. -/
def contextLead : Nat := 20

def contextLength : Nat := 100

/-- What stands for text that was left out. -/
def elision : String := "[...]"

def byteCount (text : List Char) : Nat :=
  text.foldr (fun c bytes => c.utf8Size + bytes) 0

/-- A character on the one line of an excerpt: line feeds show as an escape, carriage returns do not
show. -/
def contextChar (c : Char) : List Char :=
  if c = '\n' then ['\\', 'n'] else if c = '\r' then [] else [c]

/-- The excerpt around an offset. The mark for omitted text at the end depends on the characters before
the excerpt and the bytes in it falling short of the bytes of the text. -/
def excerpt (text : List Char) (offset : Nat) : String :=
  let start := offset - contextLead
  let shown := (text.drop start).take contextLength
  (if start = 0 then "" else elision)
    ++ String.ofList (shown.flatMap contextChar)
    ++ (if start + byteCount shown < byteCount text then elision else "")

def atOffset (kind : ParseErrorKind) (message : String) (text : List Char) (offset : Nat) :
    ParseError :=
  ⟨kind, message, some (excerpt text offset)⟩

/-- The message, followed by the excerpt on a line of its own. -/
def text (e : ParseError) : String :=
  match e.context with
  | none => e.message
  | some context => e.message ++ "\nContext: " ++ context

end ParseError

inductive Error where
  | parse (error : ParseError)
  | unboundSymbol (name : String)
  | arityMismatch (expected : Arity) (got : Nat)
  | notCallable (kind text : String)
  | invalidForm (text : String)
  | typeError (text : String)
  | evalError (text : String)
  | depthExceeded (limit : Nat)
  | thrown (value : Value)

namespace Error

def message : Error → String
  | parse error => "ParseError: " ++ error.text
  | unboundSymbol name => "Symbol '" ++ name ++ "' not found"
  | arityMismatch expected got =>
    "ArityError: expected " ++ expected.text ++ " arguments, got " ++ toString got
  | notCallable kind text =>
    kind ++ " " ++ text ++
      " is not a function. First element of list always should be a function."
  | invalidForm text => "Invalid form: " ++ text
  | typeError text => "Type error: " ++ text
  | evalError text => "EvaluationError: " ++ text
  | depthExceeded limit => "Evaluation depth limit exceeded (max: " ++ toString limit ++ ")"
  | thrown value => value.text

/-- What a handler gets to see of an error. -/
def caught : Error → Value
  | thrown value => value
  | error => .string error.message

/-- A special form that is not built as it has to be. -/
def malformed (form expected : String) : Error :=
  invalidForm (form ++ ": expected " ++ expected)

def expected (what : String) (got : Value) : Error :=
  typeError ("expected " ++ what ++ ", got " ++ got.text)

def uncallable (value : Value) : Error :=
  notCallable value.kindName value.text

/-- A map key that is neither a string nor a keyword. -/
def badKey (value : Value) : Error :=
  typeError ("map keys must be strings or keywords, got " ++ value.text)

end Error

/-- Refuses a number of arguments that an operation does not take. -/
def Arity.check (arity : Arity) (got : Nat) : Except Error Unit :=
  if arity.accepts got then .ok () else .error (.arityMismatch arity got)

/-- The value of an argument that has to be a map key. -/
def Form.toKey (value : Value) : Except Error MapKey :=
  match value.key? with
  | some key => .ok key
  | none => .error (.badKey value)

end AnnotatedLisp
