import UrlRouting.Router.Basic

/-!
# Requests

A request is a URL with a method. What follows the first question mark does not
count, and the base path has to be there and end at a slash. The first route that
accepts the rest answers.
-/

namespace UrlRouting

/-- A route that accepted a request, with the values of its blocks. -/
structure Hit (τ : Type) where
  route : Route τ
  params : Params
deriving DecidableEq, Repr

/-- The URL up to its first question mark. -/
def withoutQuery (url : List Char) : List Char :=
  url.takeWhile (· ≠ '?')

/-- The part of a path behind the base path, if the base path ends there. -/
def relativePath (base path : List Char) : Option (List Char) :=
  if base = [] then some path
  else
    (dropStart base path).filter fun rest =>
      rest = [] || rest.head? = some '/' || base.getLast? = some '/'

namespace Router

variable {τ : Type}

/-- The path of a request that routes are compared with. -/
def requestPath (r : Router τ) (url : String) : Option String :=
  (relativePath r.base.toList (withoutQuery url.toList)).map String.ofList

variable [Regex.SizeLimit]

/-- The first route that accepts a path. A route whose template does not compile is
noted and passed over. -/
def firstHit (m : Matcher) (path request : String) :
    List (Route τ) → Action (Option (Hit τ))
  | [] => return none
  | route :: rest => do
    match ← m.matchRoute route.methods route.template path request with
    | .ok (some params) => return some ⟨route, params⟩
    | .ok none => firstHit m path request rest
    | .error _ =>
      note (.routeSkipped route.template)
      firstHit m path request rest

/-- Matches a request against the table. -/
def matchRequest (r : Router τ) (url request : String) : Action (Option (Hit τ)) := do
  match r.requestPath url with
  | none =>
    note (.outsideBase request url r.base)
    return none
  | some path =>
    note (.matchAttempt request path)
    match ← firstHit r.matcher path request r.routes with
    | some hit =>
      note (.routeMatched request path hit.route.template hit.route.name)
      return some hit
    | none =>
      note (.noRouteMatched request path)
      return none

end Router

end UrlRouting
