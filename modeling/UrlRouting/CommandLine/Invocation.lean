import UrlRouting.CommandLine.Reading

/-!
# Invocations

An invocation is a command with everything that it needs. The base path may be given
on both sides of the command; the one behind it counts.
-/

namespace UrlRouting

/-- What is to be done with the routes of a file. -/
inductive Task where
  | find (method url : String) (asJson : Bool)
  | generate (name : String) (params : List (String × String))
  | list
deriving DecidableEq, Repr

structure Invocation where
  base : Option String
  path : String
  task : Task
deriving DecidableEq, Repr

namespace Invocation

/-- The method of a request if none is given. -/
def usualMethod : String := "GET"

/-- The answer to the word for help, before the words behind it. -/
def helpFault : List String → UsageFault
  | [] => .help
  | [word] => if isCommandWord word then .help else .unknownCommand
  | _ => .unknownCommand

/-- The task of a command, from the path of its route file on. -/
def taskOf (c : Command) (r : Reading) : Except UsageFault (String × Task) := do
  let path ← r.need (.switch .routes)
  match c with
  | .find =>
    let method := (r.value? (.switch .method)).getD usualMethod
    return (path, .find method (← r.need .url) (r.has (.switch .json)))
  | .generate =>
    let name ← r.need (.switch .name)
    let texts := (r.given.filter (·.1 = .switch .param)).map (·.2)
    return (path, .generate name (← texts.mapM paramOf))
  | .list => return (path, .list)

/-- Reads the arguments of the program. -/
def ofArguments (args : List String) : Except UsageFault Invocation := do
  let (outer, rest) ← Reading.readAll .top args .empty
  match rest with
  | [] =>
    let outer ← outer.settle
    throw (if outer.given = [] then .nothingGiven else .missingCommand)
  | word :: rest =>
    match Command.ofWord? word with
    | none => throw (helpFault rest)
    | some c =>
      let (inner, _) ← Reading.readAll (.inside c) rest .empty
      let inner ← inner.settle
      let (path, task) ← taskOf c inner
      let outer ← outer.settle
      let base := (inner.value? (.switch .basePath)).or (outer.value? (.switch .basePath))
      return ⟨base, path, task⟩

end Invocation

example : (Invocation.ofArguments ["match", "-rr.json", "--", "-x"]).toOption
    = some ⟨none, "r.json", .find "GET" "-x" false⟩ := by decide

end UrlRouting
