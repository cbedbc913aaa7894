import UrlRouting.Text.Letters

/-!
# Log levels

Levels are ordered by how much they show: a level shows the events of its own
kind and of every graver kind.
-/

namespace UrlRouting

inductive Level where
  | error
  | warn
  | info
  | debug
  | trace
deriving DecidableEq, Repr

namespace Level

/-- How verbose a level is. -/
def rank : Level → Nat
  | error => 1
  | warn => 2
  | info => 3
  | debug => 4
  | trace => 5

def name : Level → String
  | error => "ERROR"
  | warn => "WARN"
  | info => "INFO"
  | debug => "DEBUG"
  | trace => "TRACE"

def all : List Level := [error, warn, info, debug, trace]

/-- The level of a name, whatever the case of its ASCII letters. -/
def ofName? (word : List Char) : Option Level :=
  all.find? fun level => sameIgnoringCase level.name.toList word

theorem ofName?_name (level : Level) : ofName? level.name.toList = some level := by
  cases level <;> decide

end Level

end UrlRouting
