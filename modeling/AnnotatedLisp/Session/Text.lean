import AnnotatedLisp.Store.Basic

/-!
What an interactive session writes besides values: the banner, the help text and the listing of bindings.
-/

namespace AnnotatedLisp

namespace Session

/-- Lines as one text, each ended by a line feed. -/
def lines (texts : List String) : String :=
  String.join (texts.map fun text => text ++ "\n")

def banner : String :=
  lines
    ["Glisp evaluator",
     "Enter forms like: (let [x 2] (* x 21))",
     "Type :help for more commands, or Ctrl+C to exit.",
     ""]

def farewell : String :=
  lines ["Goodbye!"]

def helpText : String :=
  lines
    ["Glisp evaluator:",
     "  :help      - Show this help message",
     "  :env       - Show current environment bindings",
     "  :annotate  - Toggle evaluation metadata (shows macro expansions)",
     "  :quit      - Exit the interpreter",
     "  :exit      - Exit the interpreter",
     "  Ctrl+C     - Cancel a multi-line form, or exit",
     "",
     "Special forms:",
     "  def let quote quasiquote macro macroexpand",
     "  try/catch do if fn eval-when-execute",
     "",
     "Examples:",
     "  (def square (fn [x] (* x x)))",
     "  (macro unless [c a b] \x60(if ~c ~b ~a))",
     "  (try (throw \x7b:code 1\x7d) (catch e e))",
     ""]

/-- A name padded with spaces to fifteen characters. -/
def padded (name : String) : String :=
  name ++ String.ofList (List.replicate (15 - name.length) ' ')

def rows : Nat → List String → String
  | column, [] => if column = 0 then "" else "\n"
  | column, name :: names =>
    "  " ++ padded name ++
      (if column = 3 then "\n" ++ rows 0 names else rows (column + 1) names)

def isNative : Value → Bool
  | .native _ => true
  | _ => false

/-- The listing of bindings: the names of native operations, then all others with their values. -/
def listing (bindings : Entries String Value) : String :=
  if bindings.isEmpty then "Environment is empty.\n"
  else
    let natives := bindings.filter fun binding => isNative binding.2
    let others := bindings.filter fun binding => !isNative binding.2
    "Environment bindings (" ++ toString bindings.length ++ " total):\n\n"
      ++ (if natives.isEmpty then ""
        else "Built-in functions (" ++ toString natives.length ++ "):\n"
          ++ rows 0 (natives.map Prod.fst) ++ "\n")
      ++ (if others.isEmpty then ""
        else "User-defined values (" ++ toString others.length ++ "):\n"
          ++ String.join (others.map fun binding =>
            "  " ++ binding.1 ++ " = " ++ binding.2.text ++ "\n"))

end Session

end AnnotatedLisp
