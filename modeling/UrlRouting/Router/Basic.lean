import UrlRouting.Matcher

/-!
# Routers

A router is an ordered table of routes with an index of their names, a base path
and a matcher. Routes are only ever appended. A name is taken from the moment its
route is registered, and a route is registered only if its template compiles.
-/

namespace UrlRouting

structure Route (τ : Type) where
  methods : String
  template : String
  target : τ
  name : Option String
deriving DecidableEq, Repr

structure Router (τ : Type) where
  routes : List (Route τ)
  /-- Route names with the position of their route, the last one first. -/
  names : List (String × Nat)
  base : String
  matcher : Matcher
deriving DecidableEq, Repr

/-- What a router is created with. -/
structure RouterSettings where
  cacheEnabled : Bool
  base : String
deriving DecidableEq, Repr

def RouterSettings.usual : RouterSettings := ⟨true, ""⟩

namespace Router

variable {τ : Type}

/-- A router without routes, with the built-in match types. -/
def create (settings : RouterSettings) : Action (Router τ) :=
  return ⟨[], [], settings.base, ← Matcher.create MatchTypes.builtIn settings.cacheEnabled⟩

def withBase (r : Router τ) (base : String) : Router τ :=
  { r with base := base }

def types (r : Router τ) : MatchTypes :=
  r.matcher.types

/-- The position of the route with a name. -/
def index? (r : Router τ) (name : String) : Option Nat :=
  r.names.lookup name

/-- The route with a name. -/
def named? (r : Router τ) (name : String) : Option (Route τ) :=
  (r.index? name).bind fun i => r.routes[i]?

/-- The template of the route with a name. -/
def template? (r : Router τ) (name : String) : Option String :=
  (r.named? name).map (·.template)

/-- Appends a route and enters its name into the index. -/
def push (r : Router τ) (route : Route τ) : Router τ :=
  { r with
    routes := r.routes ++ [route]
    names := (route.name.map (·, r.routes.length)).toList ++ r.names }

variable [Regex.SizeLimit]

/-- Registers a route. A name that is taken is reported before anything is wrong
with the template. -/
def add (r : Router τ) (route : Route τ) :
    Action (Router τ × Except RouteError Unit) := do
  match route.name.filter fun name => (r.index? name).isSome with
  | some name => return (r, .error (.duplicateName name))
  | none =>
    match ← r.matcher.prepare route.template with
    | .error e => return (r, .error e)
    | .ok () =>
      note (.routeRegistered route.methods route.template route.name r.routes.length)
      return (r.push route, .ok ())

/-- Registers routes in order, up to the first that fails. -/
def addEach (r : Router τ) : List (Route τ) → Action (Router τ × Except RouteError Unit)
  | [] => return (r, .ok ())
  | route :: rest => do
    match ← r.add route with
    | (r, .error e) => return (r, .error e)
    | (r, .ok ()) => r.addEach rest

/-- Registers routes in order and notes the size of the table if none failed. -/
def addAll (r : Router τ) (routes : List (Route τ)) :
    Action (Router τ × Except RouteError Unit) := do
  match ← r.addEach routes with
  | (r, .error e) => return (r, .error e)
  | (r, .ok ()) =>
    note (.tableLoaded r.routes.length r.base)
    return (r, .ok ())

/-- Prepares templates in order, up to the first that fails. -/
def prepareEach (m : Matcher) : List String → Action (Except RouteError Unit)
  | [] => return .ok ()
  | template :: rest => do
    match ← m.prepare template with
    | .error e => return .error e
    | .ok () => prepareEach m rest

/-- Adds match types and compiles every route again. The types stay, also when a
route no longer compiles. -/
def addTypes (r : Router τ) (types : List (String × String)) :
    Action (Router τ × Except RouteError Unit) := do
  let matcher ← r.matcher.addTypes types
  let outcome ← prepareEach matcher (r.routes.map (·.template))
  return ({ r with matcher := matcher }, outcome)

/-- Notes the whole table, each route with the base path before its template. -/
def list (r : Router τ) : Action Unit := do
  note (.tableListed r.base r.routes.length)
  r.routes.forM fun route => note (.routeListed route.methods (r.base ++ route.template) route.name)

/-- The URL of the route with a name. -/
def generate {σ : Type} [ParamSource σ] (r : Router τ) (name : String) (params : σ) :
    Except RouteError String :=
  match r.named? name with
  | none => .error (.unknownName name)
  | some route => generateUrl r.base route.template params

end Router

end UrlRouting
