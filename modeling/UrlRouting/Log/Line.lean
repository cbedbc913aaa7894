import UrlRouting.Json.Value
import UrlRouting.Settings.Variables

/-!
# Lines of the log

An event is written on one line, as words or as a JSON object. The area that it comes
from is named only if the settings ask for it.
-/

namespace UrlRouting

/-- The text of a field, with quotes around a text. -/
def FieldValue.written : FieldValue → String
  | text s => String.ofList (Json.quote s)
  | count n => toString n
  | flag b => if b then "true" else "false"

namespace Event

/-- The area of an event, if it is to be named. -/
def location? (event : Event) (s : LogSettings) : Option String :=
  if s.showsLocation then some event.area.path else none

def prettyLine (event : Event) (s : LogSettings) : String :=
  let fields := event.fields.map fun (key, value) => s!"{key}={value.written}"
  " ".intercalate ([event.level.name] ++ (event.location? s).toList ++ [event.message] ++ fields)

def jsonLine (event : Event) (s : LogSettings) : String :=
  let named := [("level", FieldValue.text event.level.name), ("message", .text event.message)] ++
    ((event.location? s).map fun area => ("target", FieldValue.text area)).toList
  let entries := (named ++ event.fields).map fun (key, value) =>
    String.ofList (Json.quote key) ++ ":" ++ value.written
  "\x7b" ++ ",".intercalate entries ++ "\x7d"

/-- The line of an event. -/
def line (event : Event) (s : LogSettings) : String :=
  match s.format with
  | .json => event.jsonLine s
  | .pretty => event.prettyLine s

end Event

end UrlRouting
