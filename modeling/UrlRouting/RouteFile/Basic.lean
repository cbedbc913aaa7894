import UrlRouting.Dictionary
import UrlRouting.Document.Basic
import UrlRouting.Router.Basic

/-!
# Route files

A route file holds a base path, match types and routes. It is read from a document
and written to one. Whatever is missing takes its usual value, except that a route
must have its method set, its path and its target.
-/

namespace UrlRouting

structure RouteFile where
  base : Option String
  types : Dictionary
  routes : List (Route String)
deriving DecidableEq, Repr

namespace RouteFile

/-- What is read where something may be left out. -/
def readOr {α : Type} (usual : α) (read : Document → Option α) :
    Option Document → Option α
  | none => some usual
  | some d => read d

/-- Reads a route. -/
def routeOf? (rule : RecordLists) (anchored : List (Nat × Document)) (d : Document) :
    Option (Route String) := do
  match ← d.asRecord? rule anchored ["method", "path", "target", "name"] with
  | [some methods, some template, some target, name] =>
    let methods ← methods.asText? anchored
    let template ← template.asText? anchored
    let target ← target.asText? anchored
    let name ← readOr none (·.asOptionalText? anchored) name
    return ⟨methods, template, target, name⟩
  | _ => none

/-- Reads a route file. -/
def ofDocument? (rule : RecordLists) (d : AnchoredDocument) : Option RouteFile := do
  let anchored := d.anchored
  match ← d.root.asRecord? rule anchored ["base_path", "match_types", "routes"] with
  | [base, types, routes] =>
    let base ← readOr none (·.asOptionalText? anchored) base
    let types ← readOr [] (·.asTexts? anchored) types
    let routes ← readOr [] (·.asList? anchored) routes
    return ⟨base, Dictionary.ofList types, ← routes.mapM (routeOf? rule anchored)⟩
  | _ => none

/-- An entry that is left out if there is no value. -/
def optionalEntry (key : String) (value : Option String) : List (Document × Document) :=
  (value.map fun s => (.text key, Document.text s)).toList

def documentOfRoute (r : Route String) : Document :=
  .table ([(.text "method", .text r.methods), (.text "path", .text r.template),
    (.text "target", .text r.target)] ++ optionalEntry "name" r.name)

/-- Writes a route file as a document of tables, lists and texts. -/
def toDocument (f : RouteFile) : Document :=
  .table (optionalEntry "base_path" f.base ++
    [(.text "match_types", .table (f.types.entries.map fun (k, v) => (.text k, .text v))),
      (.text "routes", .list (f.routes.map documentOfRoute))])

end RouteFile

end UrlRouting
