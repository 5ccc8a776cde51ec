import AnnotatedLisp.Eval.Run
import AnnotatedLisp.Reader.Read
import AnnotatedLisp.Session.Text

/-!
The interactive session.

A session takes lines. Lines are collected until they hold complete forms; then these are evaluated one
after the other and their values are written. While nothing is collected a line may be a command
instead. An interrupt gives up what was collected, and ends the session when nothing was. So does the end of
the input, and anything that goes wrong with it.
-/

namespace AnnotatedLisp

inductive Input where
  | line (text : String)
  | interrupt
  | endOfInput
  | failure (description : String)

/-- What a line does when nothing is collected and it is not part of a form. -/
inductive Command where
  | nothing
  | help
  | showBindings
  | switchStamps
  | quit
  deriving DecidableEq

/-- A session: its store and global scope, whether stamps are made, the lines collected, the entries for
the history with the latest first, and whether it goes on. -/
structure Session where
  store : Store
  scope : ScopeId
  annotate : Bool
  pending : String
  history : List String
  running : Bool

namespace Session

def command? (line : String) : Option Command :=
  match trim line with
  | "" => some .nothing
  | ":help" => some .help
  | ":env" => some .showBindings
  | ":annotate" => some .switchStamps
  | ":quit" | ":exit" => some .quit
  | _ => none

def help : Operation :=
  .fixed [] fun _ => do
    Eval.say helpText
    return .nil

/-- A session provides the operation `help`. -/
def host : Host :=
  ⟨fun _ name _ args =>
    if name = "help" then help.call args else Eval.raise (.unboundSymbol name)⟩

def newScope : Eval ScopeId := do
  let scope ← Eval.newGlobalScope
  Eval.define scope "help" (.native (.host "help" scope))
  return scope

def start : Session :=
  match newScope .empty with
  | .ok scope store => ⟨store, scope, false, "", [], true⟩
  | .error _ store => ⟨store, 0, false, "", [], true⟩

/-- The prompt shows whether lines have been collected. -/
def prompt (s : Session) : String :=
  if s.pending.isEmpty then "glisp> " else "  ...> "

def sayError (error : Error) : Eval Unit :=
  Eval.say ("Error: " ++ error.message ++ "\n")

/-- Writes what a form was expanded into, if that is recorded. -/
def sayExpansion (form : Value) : Eval Unit := do
  let store ← get
  match form.nodeLabel?.bind fun node => (store.stampsAt node).expansion with
  | some expansion => Eval.say ("→ " ++ expansion.text ++ "\n")
  | none => return

/-- Evaluates forms one after the other and writes their values, each after the expansion of its form.
The first error ends it. -/
def evaluateAll (fuel : Nat) (annotate : Bool) (scope : ScopeId) : List Datum → Eval Unit
  | [] => return
  | datum :: data => do
    let form ← Eval.load datum
    match ← Eval.attempt (evaluate host fuel (.top annotate) form scope) with
    | .error error => sayError error
    | .ok value =>
      sayExpansion form
      Eval.say (value.text ++ "\n")
      evaluateAll fuel annotate scope data

def submit (fuel : Nat) (annotate : Bool) (scope : ScopeId) (text : String) : Eval Unit :=
  match Reader.readAll text with
  | .error error => sayError (.parse error)
  | .ok data => evaluateAll fuel annotate scope data

def say (s : Session) (text : String) : Session :=
  { s with store := { s.store with output := s.store.output ++ text } }

def obey (s : Session) : Command → Session
  | .nothing => s
  | .help => s.say helpText
  | .showBindings => s.say (listing (s.store.visible s.scope))
  | .switchStamps =>
    { s with annotate := !s.annotate }.say
      (if s.annotate then "Annotation disabled\n"
       else "Annotation enabled: macro expansions are shown (→)\n")
  | .quit => { s with running := false }.say farewell

/-- Adds a line to what is collected, and evaluates it all unless it breaks off. -/
def collect (fuel : Nat) (s : Session) (line : String) : Session :=
  let text := s.pending ++ line ++ "\n"
  if Reader.isIncomplete text then { s with pending := text }
  else
    let store := match submit fuel s.annotate s.scope text s.store with
      | .ok _ store => store
      | .error _ store => store
    { s with store, pending := "", history := trimEnd text :: s.history }

def take (fuel : Nat) (s : Session) : Input → Session
  | .line line =>
    match if s.pending.isEmpty then command? line else none with
    | some command => s.obey command
    | none => s.collect fuel line
  | .interrupt =>
    if s.pending.isEmpty then { s with running := false }.say farewell
    else { s with pending := "" }
  | .endOfInput => { s with running := false }.say farewell
  | .failure description => { s with running := false }.say ("Error: " ++ description ++ "\n")

/-- The text written since it was last taken away, and the session without it. -/
def flush (s : Session) : String × Session :=
  (s.store.output, { s with store := { s.store with output := "" } })

/-- A prompt and all that was written until the next one. -/
structure Turn where
  prompt : String
  output : String

/-- The turns of a session over given inputs, up to its end. When no input is left the input ends. -/
def turns (fuel : Nat) (s : Session) : List Input → List Turn × Session
  | [] =>
    let (output, ended) := (s.take fuel .endOfInput).flush
    ([⟨s.prompt, output⟩], ended)
  | input :: inputs =>
    let (output, next) := (s.take fuel input).flush
    if next.running then
      let (rest, ended) := turns fuel next inputs
      (⟨s.prompt, output⟩ :: rest, ended)
    else ([⟨s.prompt, output⟩], next)

end Session

end AnnotatedLisp
