import UrlRouting.Router.Basic
import UrlRouting.Text.Blank
import UrlRouting.Text.Letters

/-!
# Settings from variables

Settings are read from named variables. A variable that is not set, or whose value
cannot be used, leaves the usual setting.
-/

namespace UrlRouting

/-- The value of a variable, if it is set. -/
abbrev Variables := String → Option String

def Variables.ofList (pairs : List (String × String)) : Variables :=
  fun name => lookupLast pairs name

/-- The variables that settings are read from. -/
def variableNames : List String :=
  ["BRACKET_PATTERN_CACHE", "BRACKET_BASE_PATH", "BRACKET_LOG_LEVEL", "BRACKET_LOG_FORMAT",
    "BRACKET_LOG_ASYNC", "BRACKET_LOG_TARGET_FILTER", "BRACKET_LOG_INCLUDE_LOCATION", "RUST_LOG"]

/-- The words that switch the pattern cache off. -/
def offWords : List String := ["off", "false", "0", "no"]

/-- Whether a value of the cache variable leaves the cache on. -/
def keepsCache (value : String) : Bool :=
  !offWords.contains (String.ofList (lowerAscii (trim value.toList)))

def RouterSettings.ofVariables (vars : Variables) : RouterSettings :=
  ⟨(vars "BRACKET_PATTERN_CACHE").all keepsCache, (vars "BRACKET_BASE_PATH").getD ""⟩

inductive LogFormat where
  | json
  | pretty
deriving DecidableEq, Repr

/-- The format of a word; every word but one means the pretty format. -/
def LogFormat.ofWord (word : String) : LogFormat :=
  if sameIgnoringCase word.toList ['j', 's', 'o', 'n'] then json else pretty

def LogFormat.name : LogFormat → String
  | json => "json"
  | pretty => "pretty"

structure LogSettings where
  level : String
  format : LogFormat
  buffered : Bool
  targetFilter : Option String
  showsLocation : Bool
deriving DecidableEq, Repr

namespace LogSettings

def usual : LogSettings := ⟨"info", .pretty, false, none, false⟩

/-- Verbose settings for work at a terminal. -/
def development : LogSettings := ⟨"debug", .pretty, false, none, true⟩

/-- The truth value that a word writes exactly. -/
def truthOf? : String → Option Bool
  | "true" => some true
  | "false" => some false
  | _ => none

def ofVariables (vars : Variables) : LogSettings where
  level := (vars "BRACKET_LOG_LEVEL").getD usual.level
  format := ((vars "BRACKET_LOG_FORMAT").map LogFormat.ofWord).getD usual.format
  buffered := ((vars "BRACKET_LOG_ASYNC").bind truthOf?).getD usual.buffered
  targetFilter := (vars "BRACKET_LOG_TARGET_FILTER").filter fun s => !(trim s.toList).isEmpty
  showsLocation := ((vars "BRACKET_LOG_INCLUDE_LOCATION").bind truthOf?).getD usual.showsLocation

/-- The level that the settings ask for; an unknown word asks for the usual one. -/
def maxLevel (s : LogSettings) : Level :=
  (Level.ofName? s.level.toList).getD .info

end LogSettings

end UrlRouting
