import Criterion.CommandLine.Response

/-!
# The program

Reads what a call may need from the system, lets the library answer, and prints the answer.
-/

namespace Criterion.CommandLine

def readFile? (path : String) : IO (Option String) := do
  try
    return some (← IO.FS.readFile path)
  catch _ =>
    return none

/-- The words of a text, each of which may name a variable. -/
def words (text : String) : List String :=
  (text.splitToList fun c => !(c.isAlphanum || c == '_' || c == '.')).filter (!·.isEmpty)

/-- The variables that matter to a call, with the values that they have. -/
def inheritedVariables (environmentText : String) : IO (List (String × String)) := do
  let names := words environmentText ++ Dotenv.mentioned environmentText.toList
  (Parameters.pathVariable :: names).filterMapM fun name => do
    return (← IO.getEnv name).map (name, ·)

end Criterion.CommandLine

open Criterion CommandLine in
def main (args : List String) : IO UInt32 := do
  let environmentText ← readFile? environmentFile
  let known ← inheritedVariables (environmentText.getD "")
  let inherited := fun name => known.lookup name
  let environment := environment? (fun _ => environmentText) inherited
  let named := environment.bind (· Parameters.pathVariable)
  let contents ← (paths named args).mapM fun path => do return (path, ← readFile? path)
  let files : Files := fun path =>
    if path = environmentFile then environmentText else (contents.lookup path).join
  let response := answer files inherited args
  IO.print response.output
  if let some reason := response.reason? then IO.eprintln ("Error: " ++ reason)
  return response.code.toUInt32
