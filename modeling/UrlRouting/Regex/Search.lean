import UrlRouting.Regex.Backtrack
import UrlRouting.Regex.Reach

/-!
# The preferred match

Of all ways through an expression one is preferred: an earlier alternative over
a later one, one more round of a greedy loop over its end, and the other way
round for a lazy loop. Because `Plan.starts` tells beforehand which choices can
still succeed, the preferred way is found without ever going back. Only a loop
whose rounds may take nothing has its runs tried out.

That the leftmost match is found, and which of those that start there, is taken over
from the engine; how it is found is not.
-/

namespace UrlRouting.Regex

/-- Goes through a body once for each set, to end in that set. -/
def walkEach (walk : Positions → Spot → Spot) : List Positions → Spot → Spot
  | [], s => s
  | ends :: rest, s => walkEach walk rest (walk ends s)

/-- Goes through a body at most once for each set, to end in that set or to stop
in `ends`. -/
def walkSome (walk : Positions → Spot → Spot) (starts : Positions → Positions)
    (greedy : Bool) (ends : Positions) : List Positions → Spot → Spot
  | [], s => s
  | next :: rest, s =>
    let goesOn :=
      if greedy then (starts next).has s.position else !ends.has s.position
    if goesOn then walkSome walk starts greedy ends rest (walk next s) else s

/-- Goes through a body as long as that is preferred, each time to a position
farther on. `closed` are the positions from which `ends` can be reached. -/
def walkOn (walk : Positions → Spot → Spot) (starts : Positions → Positions)
    (greedy : Bool) (closed ends : Positions) : Nat → Spot → Spot
  | 0, s => s
  | rounds + 1, s =>
    let next := closed.behind s.position
    let goesOn :=
      if greedy then (starts next).has s.position else !ends.has s.position
    if goesOn then walkOn walk starts greedy closed ends rounds (walk next s) else s

namespace Plan

/-- The preferred way through an expression from a position to one of `ends`,
given that there is one. -/
def walk : Plan → Positions → Spot → Spot
  | .empty, _, s => s
  | .take _, _, s => ⟨s.position + 1, s.marks⟩
  | .test _, _, s => s
  | .group number _ inner, ends, s =>
    let after := walk inner ends s
    ⟨after.position, ⟨number, s.position, after.position⟩ :: after.marks⟩
  | .seq a b, ends, s => walk b ends (walk a (starts b ends) s)
  | .alt a b, ends, s =>
    if (starts a ends).has s.position then walk a ends s else walk b ends s
  | .loop min none greedy body, ends, s =>
    if body.advances then
      let closed := closure (starts body) ends
      let before := stages (starts body) min closed []
      walkOn (walk body) (starts body) greedy closed ends (closed.log2 + 1)
        (walkEach (walk body) before s)
    else (tryOut (.loop min none greedy body) ends s).getD s
  | .loop min (some max) greedy body, ends, s =>
    let widen := fun set => ends ||| starts body set
    let optional := stages widen (max - min) ends []
    let before := stages (starts body) min (Nat.repeat widen (max - min) ends) []
    walkSome (walk body) (starts body) greedy ends optional (walkEach (walk body) before s)

end Plan

/-- A match: where it starts and stops, and what its groups took. -/
structure Match where
  start : Nat
  stop : Nat
  marks : List Mark
deriving DecidableEq, Repr

/-- The leftmost match and, of those that start there, the preferred one. -/
def Pattern.search (e : Pattern) (text : List Char) : Option Match :=
  let plan := e.on text
  let ends := Positions.upTo text.length
  let starts := Plan.starts plan ends
  ((List.range (text.length + 1)).find? starts.has).map fun start =>
    let last := Plan.walk plan ends ⟨start, []⟩
    ⟨start, last.position, last.marks⟩

/-- What a group took, if it took part. -/
def Match.group? (m : Match) (number : Nat) : Option (Nat × Nat) :=
  (m.marks.find? (·.group = number)).map fun mark => (mark.start, mark.stop)

end UrlRouting.Regex
