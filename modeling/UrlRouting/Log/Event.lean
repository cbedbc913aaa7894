import UrlRouting.Log.Level

/-!
# Events

What is worth a line in the log. Each event has a level, a sentence, the area it
comes from and a few fields; an absent name is no field.
-/

namespace UrlRouting

inductive Event where
  | cacheCreated (enabled : Bool)
  | patternCached (template pattern : String) (size : Nat)
  | cacheCleared (evicted : Nat)
  | patternRefused (template pattern : String)
  | literalRejected (template path : String) (offset : Nat)
  | routeRegistered (methods template : String) (name : Option String) (index : Nat)
  | tableLoaded (count : Nat) (base : String)
  | outsideBase (method url base : String)
  | matchAttempt (method path : String)
  | routeSkipped (template : String)
  | routeMatched (method path template : String) (name : Option String)
  | noRouteMatched (method path : String)
  | tableListed (base : String) (count : Nat)
  | routeListed (methods pattern : String) (name : Option String)
  | fileLoaded (path : String) (routes matchTypes : Nat)
deriving DecidableEq, Repr

/-- The value of a field. -/
inductive FieldValue where
  | text (s : String)
  | count (n : Nat)
  | flag (b : Bool)
deriving DecidableEq, Repr

/-- The areas that events come from. -/
inductive Area where
  | compiler
  | cache
  | matcher
  | router
  | routeFile
deriving DecidableEq, Repr

/-- The path under which a filter addresses an area. -/
def Area.path : Area → String
  | compiler => "bracket_router::pattern::compiler"
  | cache => "bracket_router::pattern::cache"
  | matcher => "bracket_router::pattern::matcher"
  | router => "bracket_router::router::core"
  | routeFile => "bracket_router::config"

namespace Event

def area : Event → Area
  | cacheCreated _ => .cache
  | patternCached _ _ _ => .cache
  | cacheCleared _ => .cache
  | patternRefused _ _ => .compiler
  | literalRejected _ _ _ => .matcher
  | fileLoaded _ _ _ => .routeFile
  | _ => .router

def level : Event → Level
  | cacheCreated _ => .debug
  | patternCached _ _ _ => .debug
  | cacheCleared _ => .info
  | patternRefused _ _ => .error
  | literalRejected _ _ _ => .debug
  | routeRegistered _ _ _ _ => .debug
  | tableLoaded _ _ => .info
  | outsideBase _ _ _ => .debug
  | matchAttempt _ _ => .debug
  | routeSkipped _ => .error
  | routeMatched _ _ _ _ => .info
  | noRouteMatched _ _ => .warn
  | tableListed _ _ => .info
  | routeListed _ _ _ => .info
  | fileLoaded _ _ _ => .info

def message : Event → String
  | cacheCreated _ => "Initializing compiled pattern cache"
  | patternCached _ _ _ => "Route pattern compiled and cached"
  | cacheCleared _ => "Compiled pattern cache cleared"
  | patternRefused _ _ => "Failed to compile route pattern"
  | literalRejected _ _ _ => "Literal prefix rejected path"
  | routeRegistered _ _ _ _ => "Route registered"
  | tableLoaded _ _ => "Routing table loaded"
  | outsideBase _ _ _ => "Request outside base path"
  | matchAttempt _ _ => "Route match attempt"
  | routeSkipped _ => "Route pattern failed to compile; skipping route"
  | routeMatched _ _ _ _ => "Route matched"
  | noRouteMatched _ _ => "No route matched"
  | tableListed _ _ => "Route table"
  | routeListed _ _ _ => "Route"
  | fileLoaded _ _ _ => "Route file loaded"

/-- The field of an optional name. -/
def nameField (name : Option String) : List (String × FieldValue) :=
  (name.map fun n => ("route_name", .text n)).toList

def fields : Event → List (String × FieldValue)
  | cacheCreated enabled => [("enabled", .flag enabled)]
  | patternCached template pattern size =>
    [("template", .text template), ("pattern", .text pattern), ("cache_size", .count size)]
  | cacheCleared evicted => [("evicted", .count evicted)]
  | patternRefused template pattern => [("template", .text template), ("pattern", .text pattern)]
  | literalRejected template path offset =>
    [("template", .text template), ("path", .text path), ("template_offset", .count offset)]
  | routeRegistered methods template name index =>
    [("methods", .text methods), ("route_pattern", .text template)] ++ nameField name ++
      [("index", .count index)]
  | tableLoaded count base => [("routes_count", .count count), ("base_path", .text base)]
  | outsideBase method url base =>
    [("method", .text method), ("url", .text url), ("base_path", .text base)]
  | matchAttempt method path => [("method", .text method), ("path", .text path)]
  | routeSkipped template => [("route_pattern", .text template)]
  | routeMatched method path template name =>
    [("method", .text method), ("path", .text path), ("route_pattern", .text template)] ++
      nameField name
  | noRouteMatched method path => [("method", .text method), ("path", .text path)]
  | tableListed base count => [("base_path", .text base), ("count", .count count)]
  | routeListed methods pattern name =>
    [("methods", .text methods), ("route_pattern", .text pattern)] ++ nameField name
  | fileLoaded path routes matchTypes =>
    [("path", .text path), ("routes_count", .count routes),
      ("match_types_count", .count matchTypes)]

/-- The names of all fields that an event may have, with those that are not written
out here: its message and what is measured. -/
def fieldNames (event : Event) : List String :=
  let written := event.fields.map (·.1)
  let others : List String :=
    match event with
    | patternRefused _ _ => ["error"]
    | routeSkipped _ => ["error"]
    | routeMatched _ _ _ _ => ["route_name", "path_params", "duration_us"]
    | noRouteMatched _ _ => ["duration_us"]
    | routeRegistered _ _ _ _ => ["route_name"]
    | routeListed _ _ _ => ["route_name"]
    | _ => []
  "message" :: written ++ others

end Event

end UrlRouting
