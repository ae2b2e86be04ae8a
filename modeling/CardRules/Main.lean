import CardRules.Program

/-!
# The command line

Reads the files that the arguments name, runs the program on them, and prints what it says.
-/

set_option autoImplicit false

open CardRules

/-- The content of a file, if there is such a file and it is text. -/
def readFile? (file : String) : IO (Option String) := do
  try
    return some (← IO.FS.readFile file)
  catch _ =>
    return none

def main (args : List String) : IO UInt32 := do
  let files := ((Invocation.ofList? args).map (·.files)).getD []
  let mut contents : List (String × String) := []
  for file in files do
    if let some content ← readFile? file then
      contents := (file, content) :: contents
  let outcome := Program.run (fun file => contents.lookup file) args
  for line in outcome.output do
    IO.println line
  if let some message := outcome.failure then
    IO.eprintln message
  return outcome.code.toUInt32
