import UrlRouting.Session

/-!
# The pattern cache

A cache stands for one storage of the session. While it is enabled, a key that is
bound keeps its pattern until the cache is cleared; while it is disabled, nothing
is retained.
-/

namespace UrlRouting

structure Cache where
  storage : Nat
  enabled : Bool
deriving DecidableEq, Repr

namespace Cache

/-- A cache with a new, empty storage. -/
def create (enabled : Bool) : Action Cache := do
  note (.cacheCreated enabled)
  let s ← get
  set { s with storages := s.storages ++ [[]] }
  return ⟨s.storages.length, enabled⟩

def entries (c : Cache) : Action Storage :=
  return (← get).storage c.storage

def size (c : Cache) : Action Nat :=
  return (← c.entries).length

/-- Drops every entry. -/
def clear (c : Cache) : Action Unit := do
  let evicted ← c.size
  modify (·.withStorage c.storage [])
  note (.cacheCleared evicted)

/-- Binds a key that is not bound yet. -/
def bind (c : Cache) (key : String) (pattern : SharedPattern) : Action Unit := do
  let entries ← c.entries
  modify (·.withStorage c.storage ((key, pattern) :: entries))
  note (.patternCached key pattern.compiled.text (entries.length + 1))

/-- The pattern bound to a key, or else the one that `build` gives, which is then
bound to the key. If `build` itself binds the key, that pattern stays. -/
def getOrCompile (c : Cache) (key : String)
    (build : Action (Except RouteError CompiledPattern)) :
    Action (Except RouteError SharedPattern) := do
  if !c.enabled then
    match ← build with
    | .error e => return .error e
    | .ok compiled => return .ok (← share compiled)
  match (← c.entries).lookup key with
  | some pattern => return .ok pattern
  | none =>
    match ← build with
    | .error e => return .error e
    | .ok compiled =>
      let pattern ← share compiled
      match (← c.entries).lookup key with
      | some bound => return .ok bound
      | none =>
        c.bind key pattern
        return .ok pattern

end Cache

end UrlRouting
