import UrlRouting.CommandLine.Run
import UrlRouting.Log.Filter
import UrlRouting.Regex.ProgramSize

/-!
# The program

The program reads its settings for the log, its arguments and then the route file. It
tells what is wrong and shows the events of its run, and answers with an exit code.
-/

namespace UrlRouting

/-- What a run of the program leaves. -/
structure RunReport where
  exitCode : Nat
  out : String
  /-- What is said apart from the output: warnings, and an error if there is one. -/
  remarks : List String
  /-- The events that are shown. -/
  events : List Event
deriving DecidableEq, Repr

/-- What is said about a part of the target filter that is no directive. -/
def filterWarning (part : String) : String :=
  s!"Warning: Invalid log filter directive: {part}"

/-- Runs the program. -/
def runProgram [Regex.SizeLimit] (files : Files) (vars : Variables) (args : List String) :
    RunReport :=
  let (filter, refused) := (LogSettings.ofVariables vars).filter vars
  let warnings := refused.map filterWarning
  match Invocation.ofArguments args with
  | .error .help => ⟨UsageFault.exitCode .help, textOfLines usageLines, warnings, []⟩
  | .error fault =>
    ⟨fault.exitCode, "", warnings ++ s!"error: {fault.message}" :: usageLines, []⟩
  | .ok invocation =>
    let (outcome, session) := (invocation.run files vars).run .start
    let events := session.log.reverse.filter filter.shows
    match outcome with
    | .ok (lines, status) => ⟨status.exitCode, textOfLines lines, warnings, events⟩
    | .error e => ⟨2, "", warnings ++ [s!"error: {e.line}"], events⟩

end UrlRouting
