import UrlRouting.Cache
import UrlRouting.Methods
import UrlRouting.Pattern.LiteralScan

/-!
# Matchers

A matcher holds a table of match types and a cache of the patterns compiled under
that table. It decides whether one route accepts one request. Cheap tests come
first: the method set, the wildcard, plain equality of templates without a bracket,
and the literal beginning of the template.
-/

namespace UrlRouting

/-- The template that matches every path. -/
def wildcard : String := "*"

structure Matcher where
  types : MatchTypes
  cache : Cache
deriving DecidableEq, Repr

/-- Whether matching a template runs a pattern. -/
def needsPattern (template : String) : Bool :=
  template ≠ wildcard && (isRaw template || hasBracket template)

/-- The text of a template before its first bracket. -/
def literalStart (template : List Char) : List Char :=
  template.takeWhile (· ≠ '[')

variable [Regex.SizeLimit]

/-- Compiles a template; a text that is no regular expression is noted. -/
def compileNoted (types : MatchTypes) (template : String) :
    Action (Except RouteError CompiledPattern) := do
  let answer := compileTemplate types template
  if let .error (.invalidPattern template text _) := answer then
    note (.patternRefused template text)
  return answer

namespace Matcher

/-- A matcher with a cache of its own. -/
def create (types : MatchTypes) (cacheEnabled : Bool) : Action Matcher :=
  return ⟨types, ← Cache.create cacheEnabled⟩

/-- Puts match types over those of the table. Clones keep the old table, and with it
the old storage. -/
def addTypes (m : Matcher) (types : List (String × String)) : Action Matcher :=
  return ⟨m.types.extend types, ← Cache.create m.cache.enabled⟩

/-- The pattern of a template, out of the cache if it is there. -/
def compile (m : Matcher) (template : String) :
    Action (Except RouteError SharedPattern) :=
  m.cache.getOrCompile template (compileNoted m.types template)

/-- Compiles a template if matching it runs a pattern. -/
def prepare (m : Matcher) (template : String) : Action (Except RouteError Unit) := do
  if needsPattern template then
    match ← m.compile template with
    | .error e => return .error e
    | .ok _ => return .ok ()
  else return .ok ()

/-- Runs the pattern of a template against a path. -/
def runPattern (m : Matcher) (template path : String) :
    Action (Except RouteError (Option Params)) := do
  match ← m.compile template with
  | .error e => return .error e
  | .ok pattern => return .ok (pattern.compiled.captures path)

/-- Whether a route with a method set and a template accepts a request, and with
which parameters. -/
def matchRoute (m : Matcher) (methods template path request : String) :
    Action (Except RouteError (Option Params)) := do
  if !allowsMethod methods request then return .ok none
  else if template = wildcard then return .ok (some .empty)
  else if isRaw template then m.runPattern template path
  else if !hasBracket template then
    return .ok (if template = path then some .empty else none)
  else
    match scanLiteral template.toList path.toList with
    | .mismatch offset =>
      note (.literalRejected template path offset)
      return .ok none
    | .compatible _ =>
      if (literalStart template.toList).isPrefixOf path.toList then m.runPattern template path
      else return .ok none

end Matcher

end UrlRouting
