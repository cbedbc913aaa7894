import UrlRouting.Json.Reader
import UrlRouting.RouteFile.Basic
import UrlRouting.RouteFile.Files
import UrlRouting.Toml.Reader
import UrlRouting.Yaml.Reader

/-!
# Loading route files

A route file is read from a path whose extension tells the format, and then built
into a router. Match types come first, so that every route of the file may use them.
-/

namespace UrlRouting

/-- The document that a text writes. -/
def FileFormat.documentOf? (format : FileFormat) (text : String) :
    Option AnchoredDocument :=
  match format with
  | yaml => Yaml.documentOf? text.toList
  | json => Json.documentOf? text.toList
  | toml => Toml.documentOf? text.toList

/-- The route file that a text writes. -/
def RouteFile.ofText? (format : FileFormat) (text : String) : Option RouteFile := do
  RouteFile.ofDocument? format.recordLists (← format.documentOf? text)

/-- Whether the document that a route file is written to is read back as the same
route file. -/
def RouteFile.readsBack (f : RouteFile) (format : FileFormat) : Bool :=
  RouteFile.ofDocument? format.recordLists ⟨f.toDocument, []⟩ = some f

inductive LoadError where
  /-- The extension of the path stands for no format. -/
  | unsupported (path : String)
  | unreadable (path : String) (failure : ReadFailure)
  | malformed (path : String) (format : FileFormat)
deriving DecidableEq, Repr

/-- What is said about a text that is no route file. -/
def malformedMessage (format : FileFormat) : String :=
  s!"invalid {format.title} route file"

/-- The messages of an error, the outermost first. -/
def LoadError.messages : LoadError → List String
  | unsupported path =>
    [s!"unsupported route file extension for {path} (expected .yaml, .yml, .json or .toml)"]
  | unreadable path _ => [s!"failed to read route file {path}"]
  | malformed path format => [s!"failed to parse route file {path}", malformedMessage format]

/-- Reads a route file. -/
def RouteFile.load (files : Files) (path : String) :
    Action (Except LoadError RouteFile) := do
  match FileFormat.ofPath? path with
  | none => return .error (.unsupported path)
  | some format =>
    match files path with
    | .error failure => return .error (.unreadable path failure)
    | .ok text =>
      match RouteFile.ofText? format text with
      | none => return .error (.malformed path format)
      | some file =>
        note (.fileLoaded path file.routes.length file.types.size)
        return .ok file

variable [Regex.SizeLimit]

/-- Builds a router from a route file. The base path of the file wins over that of
the settings. -/
def Router.ofRouteFile (settings : RouterSettings) (file : RouteFile) :
    Action (Except RouteError (Router String)) := do
  let created : Router String ← Router.create settings
  let r := created.withBase (file.base.getD settings.base)
  match ← r.addTypes file.types.entries with
  | (_, .error e) => return .error e
  | (r, .ok ()) =>
    match ← r.addAll file.routes with
    | (_, .error e) => return .error e
    | (r, .ok ()) => return .ok r

end UrlRouting
