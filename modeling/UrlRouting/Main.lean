import UrlRouting.CommandLine.Program
import UrlRouting.Log.Line

/-!
# The program at the system

Reads the variables and the route file that the arguments name, runs the program, and
prints what it leaves: events and remarks apart from the output.
-/

namespace UrlRouting

/-- The variables of the process. -/
def processVariables : IO Variables := do
  let pairs ← variableNames.filterMapM fun name => do
    return (← IO.getEnv name).map (name, ·)
  return Variables.ofList pairs

/-- Reads the text of a file. -/
def readText (path : String) : IO (Except ReadFailure String) := do
  try
    return FileNode.read (.bytes (← IO.FS.readBinFile path))
  catch
    | .noFileOrDirectory _ _ _ => return .error .notFound
    | e => return .error (.other (toString e))

/-- The file that the arguments name. -/
def namedFile (args : List String) : IO Files := do
  match Invocation.ofArguments args with
  | .error _ => return fun _ => .error .notFound
  | .ok invocation =>
    let content ← readText invocation.path
    return fun _ => content

end UrlRouting

open UrlRouting in
/-- Runs the program with its arguments. -/
def main (args : List String) : IO UInt32 := do
  let vars ← processVariables
  let report := runProgram (← namedFile args) vars args
  let settings := LogSettings.ofVariables vars
  report.events.forM fun event => IO.eprintln (event.line settings)
  report.remarks.forM fun remark => IO.eprintln remark
  IO.print report.out
  return report.exitCode.toUInt32
