/-!
# The words of the command line

There are three commands. Each of them takes switches, written with one dash and a
letter or with two dashes and a word, and one takes the URL of a request besides.
The base path may be given before the command too.
-/

namespace UrlRouting

inductive Command where
  /-- Find the route for a request. -/
  | find
  /-- Generate the URL of a route. -/
  | generate
  /-- List the routes. -/
  | list
deriving DecidableEq, Repr

namespace Command

def ofWord? : String → Option Command
  | "match" => some find
  | "generate" => some generate
  | "routes" => some list
  | _ => none

end Command

/-- The word that asks for help instead of a command. -/
def helpWord : String := "help"

def isCommandWord (word : String) : Bool :=
  word = helpWord || (Command.ofWord? word).isSome

inductive Switch where
  | basePath
  | routes
  | method
  | json
  | name
  | param
  | help
deriving DecidableEq, Repr

namespace Switch

def long : Switch → String
  | basePath => "base-path"
  | routes => "routes"
  | method => "method"
  | json => "json"
  | name => "name"
  | param => "param"
  | help => "help"

def short? : Switch → Option Char
  | routes => some 'r'
  | method => some 'm'
  | name => some 'n'
  | param => some 'p'
  | help => some 'h'
  | _ => none

def takesValue : Switch → Bool
  | json => false
  | help => false
  | _ => true

/-- Whether a switch may be given more than once. -/
def repeats (s : Switch) : Bool :=
  s = param

end Switch

/-- Where an argument stands: before the command, or behind it. -/
inductive Scope where
  | top
  | inside (c : Command)
deriving DecidableEq, Repr

namespace Scope

def switches : Scope → List Switch
  | top => [.basePath, .help]
  | inside .find => [.routes, .method, .json, .basePath, .help]
  | inside .generate => [.routes, .name, .param, .basePath, .help]
  | inside .list => [.routes, .basePath, .help]

def takesUrl (s : Scope) : Bool :=
  s = inside .find

end Scope

inductive ParamFlaw where
  | noEquals
  | noKey
deriving DecidableEq, Repr

/-- What is said about the text of a parameter. -/
def ParamFlaw.message (text : String) : ParamFlaw → String
  | noEquals => s!"invalid param '{text}': expected key=value"
  | noKey => s!"invalid param '{text}': empty key"

/-- Why arguments are no command. -/
inductive UsageFault where
  /-- Help was asked for, which is no mistake. -/
  | help
  | nothingGiven
  | missingCommand
  | unknownCommand
  | unknownArgument
  | missingArgument
  | missingValue
  | unexpectedValue
  | repeated
  | malformedParam (text : String) (flaw : ParamFlaw)
deriving DecidableEq, Repr

namespace UsageFault

def exitCode : UsageFault → Nat
  | help => 0
  | _ => 2

/-- What is said about the value of a parameter. -/
def reason? : UsageFault → Option String
  | malformedParam text flaw => some (flaw.message text)
  | _ => none

def message : UsageFault → String
  | help => "help was asked for"
  | nothingGiven => "no arguments"
  | missingCommand => "no command"
  | unknownCommand => "unknown command"
  | unknownArgument => "unknown argument"
  | missingArgument => "a required argument is missing"
  | missingValue => "a value is missing"
  | unexpectedValue => "a switch without values has a value"
  | repeated => "a switch is given twice"
  | malformedParam text flaw => flaw.message text

end UsageFault

/-- How the program is called. -/
def usageLines : List String :=
  ["Usage: bracket-router [--base-path PATH] COMMAND",
    "  match -r FILE [-m METHOD] [--json] URL",
    "  generate -r FILE -n NAME [-p KEY=VALUE]...",
    "  routes -r FILE"]

end UrlRouting
