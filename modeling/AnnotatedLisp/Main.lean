import AnnotatedLisp.Session.Turn

/-!
The command line: a session on the standard streams.
-/

namespace AnnotatedLisp

/-- Steps granted to one evaluation on the command line, far more than can be taken. -/
def unboundedFuel : Nat := Nat.pow 2 62

/-- Prompts for lines and takes them until the session ends. -/
partial def Session.interact (s : Session) : IO Unit := do
  let stdout ← IO.getStdout
  stdout.putStr s.prompt
  stdout.flush
  let line ← (← IO.getStdin).getLine
  let input := if line.isEmpty then .endOfInput else .line (line.dropEndWhile (· == '\n')).copy
  let (output, next) := (s.take unboundedFuel input).flush
  stdout.putStr output
  stdout.flush
  if next.running then next.interact

end AnnotatedLisp

def main : IO Unit := do
  IO.print AnnotatedLisp.Session.banner
  AnnotatedLisp.Session.start.interact
