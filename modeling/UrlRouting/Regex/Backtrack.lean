import UrlRouting.Regex.Positions

/-!
# Loops with idle rounds

Some loops have rounds that may take nothing. Which way through such a loop is
preferred depends on where in it a run has been since its last character,
because no run comes back to a place without having taken one. So runs are tried
one after the other in the order of preference, and each place is entered at
most once at each position.
-/

namespace UrlRouting.Regex

/-- The part of the text that a group took in its last round. -/
structure Mark where
  group : Nat
  start : Nat
  stop : Nat
deriving DecidableEq, Repr

/-- A position on a way, and the groups closed so far, the last one first. -/
structure Spot where
  position : Nat
  marks : List Mark
deriving DecidableEq, Repr

/-- Something that is left to do on a run. -/
inductive Task where
  | go (e : Plan)
  | close (number : Nat)
  /-- Any number of further rounds. -/
  | again (greedy : Bool) (body : Plan)
  /-- At most so many further rounds. -/
  | upTo (count : Nat) (greedy : Bool) (body : Plan)
  /-- Nothing: it tells a second alternative from a first one that looks the same. -/
  | second
deriving DecidableEq

/-- Where a run is: what it is left to do, and the position. -/
abbrev Place := List Task × Nat

/-- Two ways to go on, a greedy one with another round first. -/
def roundOrNot (greedy : Bool) (round rest : List Task) : List (List Task) :=
  if greedy then [round, rest] else [rest, round]

/-- What may be left to do behind a position once a task has begun, the
preferred first. -/
def Task.choices (rest : List Task) (i : Nat) : Task → List (List Task)
  | .go .empty => [rest]
  | .go (.take leaf) => if leaf.has i then [rest] else []
  | .go (.test leaf) => if leaf.has i then [rest] else []
  | .go (.group number _ inner) => [.go inner :: .close number :: rest]
  | .go (.seq a b) => [.go a :: .go b :: rest]
  | .go (.alt a b) => [.go a :: rest, .go b :: .second :: rest]
  | .go (.loop min none greedy body) =>
    if min = 0 ∧ body.advances = false then
      roundOrNot greedy (.go body :: .again greedy body :: rest) rest
    else [List.replicate min (.go body) ++ .again greedy body :: rest]
  | .go (.loop min (some max) greedy body) =>
    [List.replicate min (.go body) ++ .upTo (max - min) greedy body :: rest]
  | .close _ => [rest]
  | .again greedy body => roundOrNot greedy (.go body :: .again greedy body :: rest) rest
  | .upTo 0 _ _ => [rest]
  | .upTo (count + 1) greedy body =>
    roundOrNot greedy (.go body :: .upTo count greedy body :: rest) rest
  | .second => [rest]

/-- The position behind the beginning of a task: only a leaf takes a character. -/
def Task.position (i : Nat) : Task → Nat
  | .go (.take _) => i + 1
  | _ => i

/-- Where the open groups began, the innermost one first. -/
def Task.starts (i : Nat) (starts : List Nat) : Task → List Nat
  | .go (.group _ _ _) => i :: starts
  | .close _ => starts.tail
  | _ => starts

def Task.marks (i : Nat) (starts : List Nat) (marks : List Mark) : Task → List Mark
  | .close number => ⟨number, starts.headD i, i⟩ :: marks
  | _ => marks

/-- A run under way: what it is left to do, where the open groups began, and its
spot. -/
structure Trial where
  tasks : List Task
  starts : List Nat
  spot : Spot

def Trial.place (r : Trial) : Place :=
  (r.tasks, r.spot.position)

/-- How a run can go on by one step, the preferred way first. -/
def Trial.next (r : Trial) : List Trial :=
  match r.tasks with
  | [] => []
  | task :: rest =>
    let i := r.spot.position
    let starts := task.starts i r.starts
    let spot := ⟨task.position i, task.marks i r.starts r.spot.marks⟩
    (task.choices rest i).map (Trial.mk · starts spot)

/-- The places that are left once one has been entered. -/
def remaining (unseen : List Place) (place : Place) : List Place :=
  unseen.filter (· ≠ place)

theorem mem_remaining {unseen : List Place} {p place : Place} :
    p ∈ remaining unseen place ↔ p ∈ unseen ∧ p ≠ place := by
  simp [remaining]

theorem length_remaining_lt {unseen : List Place} {place : Place} (h : place ∈ unseen) :
    (remaining unseen place).length < unseen.length :=
  List.length_filter_lt_length_iff_exists.mpr ⟨place, h, by simp⟩

/-- The first run to one of `ends`, through places that no run has entered yet. -/
def Trial.first (ends : Positions) (unseen : List Place) : List Trial → Option Spot
  | [] => none
  | r :: later =>
    if r.place ∈ unseen then
      if r.tasks = [] ∧ ends.has r.spot.position = true then some r.spot
      else first ends (remaining unseen r.place) (r.next ++ later)
    else first ends unseen later
termination_by runs => (unseen.length, runs.length)
decreasing_by
  · exact Prod.Lex.left _ _ (length_remaining_lt ‹_›)
  · exact Prod.Lex.right _ (Nat.lt_succ_self _)

/-- All that may be left to do on a run through an expression with `rest` behind it. -/
def Plan.stations : Plan → List Task → List (List Task)
  | .empty, rest => [.go .empty :: rest]
  | .take leaf, rest => [.go (.take leaf) :: rest]
  | .test leaf, rest => [.go (.test leaf) :: rest]
  | .group number name inner, rest =>
    (.go (.group number name inner) :: rest) :: (.close number :: rest) ::
      stations inner (.close number :: rest)
  | .seq a b, rest =>
    (.go (.seq a b) :: rest) :: (stations a (.go b :: rest) ++ stations b rest)
  | .alt a b, rest =>
    (.go (.alt a b) :: rest) :: (.second :: rest) ::
      (stations a rest ++ stations b (.second :: rest))
  | .loop min none greedy body, rest =>
    (.go (.loop min none greedy body) :: rest) :: (.again greedy body :: rest) ::
      (List.range (min + 1)).flatMap fun left =>
        stations body (List.replicate left (.go body) ++ .again greedy body :: rest)
  | .loop min (some max) greedy body, rest =>
    (.go (.loop min (some max) greedy body) :: rest) ::
      ((List.range (max - min + 1)).flatMap fun left =>
        (.upTo left greedy body :: rest) :: stations body (.upTo left greedy body :: rest)) ++
      (List.range min).flatMap fun left =>
        stations body (List.replicate left (.go body) ++ .upTo (max - min) greedy body :: rest)

/-- The places of the runs through an expression at the first `count` positions. -/
def Plan.places (e : Plan) (count : Nat) : List Place :=
  ([] :: stations e []).flatMap fun tasks => (List.range count).map (tasks, ·)

/-- The preferred way through an expression from a position to one of `ends`, if
there is one, by trying. -/
def Plan.tryOut (e : Plan) (ends : Positions) (s : Spot) : Option Spot :=
  Trial.first ends (places e (ends.log2 + 1)) [⟨[.go e], [], s⟩]

end UrlRouting.Regex
