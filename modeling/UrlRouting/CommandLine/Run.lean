import UrlRouting.CommandLine.Invocation
import UrlRouting.Json.Value
import UrlRouting.RouteFile.Load
import UrlRouting.Router.Request
import UrlRouting.Settings.Variables

/-!
# Running commands

Every command builds the router of its route file. The base path of the command line
wins over the one of the file, which wins over the one of the settings. What a command
prints is a list of lines.
-/

namespace UrlRouting

inductive Status where
  | success
  /-- No route accepts the request. -/
  | noMatch
deriving DecidableEq, Repr

def Status.exitCode : Status → Nat
  | success => 0
  | noMatch => 1

inductive CommandError where
  | invalidMethod (method : String)
  | notLoaded (e : LoadError)
  | notBuilt (path : String) (e : RouteError)
  | notGenerated (e : RouteError)
deriving DecidableEq, Repr

namespace CommandError

/-- What is said about an error before its cause, the outermost message first. -/
def messages : CommandError → List String
  | invalidMethod method => [s!"invalid HTTP method '{method}'"]
  | notLoaded e => e.messages
  | notBuilt path _ => [s!"failed to build router from {path}"]
  | notGenerated _ => []

/-- The route error behind an error. -/
def cause? : CommandError → Option RouteError
  | notBuilt _ e => some e
  | notGenerated e => some e
  | _ => none

/-- What is said about the cause of an error. -/
def causeMessage? : CommandError → Option String
  | invalidMethod _ => some "invalid HTTP method"
  | notLoaded (.unreadable _ failure) => some failure.reason
  | notLoaded _ => none
  | notBuilt _ e => some e.message
  | notGenerated e => some e.message

/-- The whole error on one line. -/
def line (e : CommandError) : String :=
  ": ".intercalate (e.messages ++ e.causeMessage?.toList)

end CommandError

/-- A text with blanks behind it up to a width. -/
def padded (width : Nat) (s : String) : String :=
  s ++ String.ofList (List.replicate (width - s.length) ' ')

/-- A route in the list of routes. -/
def routeLine (base : String) (r : Route String) : String :=
  let name := (r.name.map fun n => s!" ({n})").getD ""
  padded 16 r.methods ++ s!" {base}{r.template} -> {r.target}{name}"

/-- What is printed about the route for a request. -/
def hitLines (hit : Hit String) : List String :=
  let name := hit.route.name.getD "-"
  [s!"target: {hit.route.target}", s!"name: {name}", s!"template: {hit.route.template}"] ++
    hit.params.entries.map fun (key, value) => s!"param {key}: {value}"

/-- The route for a request as a JSON value. -/
def hitValue (hit : Hit String) : Json.Value :=
  let params := hit.params.toDictionary.entries.map fun (key, value) => (key, Json.Value.text value)
  .object [("name", (hit.route.name.map Json.Value.text).getD .null), ("params", .object params),
    ("target", .text hit.route.target)]

/-- What a command prints, and how it ends. -/
abbrev Printed := List String × Status

namespace Invocation

variable [Regex.SizeLimit]

/-- The router that a command works with. -/
def router (files : Files) (vars : Variables) (i : Invocation) :
    Action (Except CommandError (Router String)) := do
  match ← RouteFile.load files i.path with
  | .error e => return .error (.notLoaded e)
  | .ok file =>
    match ← Router.ofRouteFile (RouterSettings.ofVariables vars) file with
    | .error e => return .error (.notBuilt i.path e)
    | .ok r => return .ok ((i.base.map r.withBase).getD r)

/-- Carries out a task with a router. -/
def perform (r : Router String) : Task → Action (Except CommandError Printed)
  | .find method url asJson => do
    match ← r.matchRequest url method with
    | none => return .ok ([if asJson then "null" else s!"no match: {method} {url}"], .noMatch)
    | some hit => return .ok (if asJson then [(hitValue hit).pretty] else hitLines hit, .success)
  | .generate name params =>
    match r.generate name params with
    | .error e => return .error (.notGenerated e)
    | .ok url => return .ok ([url], .success)
  | .list => do
    r.list
    return .ok (r.routes.map (routeLine r.base), .success)

/-- The method that a request of a task would have, if it is none. -/
def invalidMethod? : Task → Option String
  | .find method _ _ => if isMethod method then none else some method
  | _ => none

/-- Runs a command. The method is looked at before the route file. -/
def run (files : Files) (vars : Variables) (i : Invocation) :
    Action (Except CommandError Printed) := do
  match invalidMethod? i.task with
  | some method => return .error (.invalidMethod method)
  | none =>
    match ← i.router files vars with
    | .error e => return .error e
    | .ok r => perform r i.task

end Invocation

/-- Lines as a text. -/
def textOfLines (lines : List String) : String :=
  String.join (lines.map (· ++ "\n"))

end UrlRouting
