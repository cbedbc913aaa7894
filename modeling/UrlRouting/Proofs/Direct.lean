import UrlRouting.Router.Request

/-!
# Routing without a cache

What a matcher or a router answers when every pattern is compiled at the moment it
is needed. Nothing here has an effect: a routing table is a plain value, and a
template means what the table's own match types make of it.
-/

namespace UrlRouting

variable [Regex.SizeLimit]

/-- Whether a template can be matched. -/
def prepared (types : MatchTypes) (template : String) : Except RouteError Unit :=
  if needsPattern template then (compileTemplate types template).map fun _ => ()
  else .ok ()

/-- The captures of a path under the pattern of a template. -/
def patternAnswer (types : MatchTypes) (template path : String) :
    Except RouteError (Option Params) :=
  (compileTemplate types template).map (·.captures path)

/-- Whether a route accepts a request. The pattern of a template with a bracket is
run only on a path that starts with the text before the bracket. -/
def routeAnswer (types : MatchTypes) (methods template path request : String) :
    Except RouteError (Option Params) :=
  if !allowsMethod methods request then .ok none
  else if template = wildcard then .ok (some .empty)
  else if isRaw template then patternAnswer types template path
  else if !hasBracket template then .ok (if template = path then some .empty else none)
  else if (literalStart template.toList).isPrefixOf path.toList then
    patternAnswer types template path
  else .ok none

/-- What a router's answers depend on. -/
structure Table (τ : Type) where
  routes : List (Route τ)
  names : List (String × Nat)
  base : String
  types : MatchTypes
deriving DecidableEq, Repr

namespace Table

variable {τ : Type}

def create (base : String) : Table τ :=
  ⟨[], [], base, MatchTypes.builtIn⟩

def named? (t : Table τ) (name : String) : Option (Route τ) :=
  (t.names.lookup name).bind fun i => t.routes[i]?

def push (t : Table τ) (route : Route τ) : Table τ :=
  { t with
    routes := t.routes ++ [route]
    names := (route.name.map (·, t.routes.length)).toList ++ t.names }

def add (t : Table τ) (route : Route τ) : Table τ × Except RouteError Unit :=
  match route.name.filter fun name => (t.names.lookup name).isSome with
  | some name => (t, .error (.duplicateName name))
  | none =>
    match prepared t.types route.template with
    | .error e => (t, .error e)
    | .ok () => (t.push route, .ok ())

def addAll (t : Table τ) : List (Route τ) → Table τ × Except RouteError Unit
  | [] => (t, .ok ())
  | route :: rest =>
    match t.add route with
    | (t, .error e) => (t, .error e)
    | (t, .ok ()) => t.addAll rest

/-- Whether all of several templates can be matched; else why the first cannot. -/
def preparedAll (types : MatchTypes) : List String → Except RouteError Unit
  | [] => .ok ()
  | template :: rest =>
    match prepared types template with
    | .error e => .error e
    | .ok () => preparedAll types rest

def addTypes (t : Table τ) (types : List (String × String)) :
    Table τ × Except RouteError Unit :=
  let t := { t with types := t.types.extend types }
  (t, preparedAll t.types (t.routes.map (·.template)))

def generate {σ : Type} [ParamSource σ] (t : Table τ) (name : String) (params : σ) :
    Except RouteError String :=
  match t.named? name with
  | none => .error (.unknownName name)
  | some route => generateUrl t.base route.template params

/-- The first of several routes that accepts a path. One that does not compile is
passed over. -/
def firstHit (types : MatchTypes) (path request : String) :
    List (Route τ) → Option (Hit τ)
  | [] => none
  | route :: rest =>
    match routeAnswer types route.methods route.template path request with
    | .ok (some params) => some ⟨route, params⟩
    | _ => firstHit types path request rest

/-- The path of a request that routes are compared with. -/
def requestPath (t : Table τ) (url : String) : Option String :=
  (relativePath t.base.toList (withoutQuery url.toList)).map String.ofList

def matchRequest (t : Table τ) (url request : String) : Option (Hit τ) :=
  (t.requestPath url).bind fun path => firstHit t.types path request t.routes

end Table

/-- A router without its cache. -/
def Router.table {τ : Type} (r : Router τ) : Table τ :=
  ⟨r.routes, r.names, r.base, r.matcher.types⟩

end UrlRouting
