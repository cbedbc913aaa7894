import UrlRouting.Log.Event
import UrlRouting.Pattern.Compiled

/-!
# Sessions

Clones of a matcher share the storage of its compiled patterns until one of them
gets new match types. A session is what they share: every storage created so far,
and the log. A compiled pattern in a storage carries a number that tells it from
every other one, also from an equal one compiled at another time.
-/

namespace UrlRouting

/-- A compiled pattern that can be told from equal ones. -/
structure SharedPattern where
  number : Nat
  compiled : CompiledPattern
deriving DecidableEq, Repr

/-- Compiled patterns under their keys, the last one first. -/
abbrev Storage := List (String × SharedPattern)

/-- The storages in order of creation, how many patterns were numbered, and the log
with the last event first. -/
structure Session where
  storages : List Storage
  numbered : Nat
  log : List Event
deriving DecidableEq, Repr

def Session.start : Session := ⟨[], 0, []⟩

/-- Something done in a session. -/
abbrev Action (α : Type) := StateM Session α

namespace Session

/-- The storage of a number; an unknown one is empty. -/
def storage (s : Session) (id : Nat) : Storage :=
  (s.storages[id]?).getD []

def note (s : Session) (event : Event) : Session :=
  { s with log := event :: s.log }

def withStorage (s : Session) (id : Nat) (entries : Storage) : Session :=
  { s with storages := s.storages.set id entries }

end Session

/-- Writes an event to the log. -/
def note (event : Event) : Action Unit :=
  modify (·.note event)

/-- Gives a compiled pattern its number. -/
def share (compiled : CompiledPattern) : Action SharedPattern := do
  let s ← get
  set { s with numbered := s.numbered + 1 }
  return ⟨s.numbered, compiled⟩

end UrlRouting
