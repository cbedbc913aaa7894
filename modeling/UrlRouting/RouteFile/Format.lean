import UrlRouting.Document.Basic
import UrlRouting.Text.Letters
import UrlRouting.Text.Split

/-!
# Formats of route files

The format of a route file is told by the extension of its name. A name may start
with a dot without having an extension, and a path that ends in a slash has the name
before the slash.
-/

namespace UrlRouting

inductive FileFormat where
  | yaml
  | json
  | toml
deriving DecidableEq, Repr

/-- The parts of a path between slashes. Empty parts do not count, and a dot counts
only as the first part. -/
def pathParts (path : List Char) : List (List Char) :=
  match splitOn '/' path with
  | [] => []
  | first :: rest =>
    (if first = [] then [] else [first]) ++ rest.filter fun part => part ≠ [] && part ≠ ['.']

/-- The name that a path ends with. -/
def fileName? (path : List Char) : Option (List Char) :=
  (pathParts path).getLast?.filter fun name => name ≠ ['.'] && name ≠ ['.', '.']

/-- What follows the last dot of a name, if something stands before that dot. -/
def extensionOf? (name : List Char) : Option (List Char) :=
  let reversed := name.reverse
  let ending := reversed.takeWhile (· ≠ '.')
  match reversed.dropWhile (· ≠ '.') with
  | _ :: _ :: _ => some ending.reverse
  | _ => none

namespace FileFormat

def ofExtension? (ending : List Char) : Option FileFormat :=
  match String.ofList (lowerAscii ending) with
  | "yaml" => some yaml
  | "yml" => some yaml
  | "json" => some json
  | "toml" => some toml
  | _ => none

/-- The format of a file with a path. -/
def ofPath? (path : String) : Option FileFormat := do
  ofExtension? (← extensionOf? (← fileName? path.toList))

/-- How lists are read as records in a format. -/
def recordLists : FileFormat → RecordLists
  | yaml => .refused
  | json => .exact
  | toml => .loose

def title : FileFormat → String
  | yaml => "YAML"
  | json => "JSON"
  | toml => "TOML"

end FileFormat

example : FileFormat.ofPath? "dir/.yaml" = none := by decide
example : FileFormat.ofPath? "a.b.TOML/" = some .toml := by decide

end UrlRouting
