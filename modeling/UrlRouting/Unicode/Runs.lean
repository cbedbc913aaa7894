/-!
# Code points in runs

Properties of code points change rarely along the code space, so a table keeps
the starts of its runs and one value per run. A value is found by bisection.
Tables are written as texts whose numbers are in base 36.
-/

namespace UrlRouting.Unicode

/-- The pieces of a text between blanks and line ends. -/
def pieces (text : String) : List (List Char) :=
  let (held, done) := text.toList.foldr
    (fun c (held, done) =>
      if c = ' ' ∨ c = '\n' then ([], held :: done) else (c :: held, done))
    (([] : List Char), ([] : List (List Char)))
  held :: done

/-- The value of a base 36 digit. -/
def digit36 (c : Char) : Nat :=
  if c.isDigit then c.toNat - '0'.toNat else c.toNat - 'a'.toNat + 10

def number36 (cs : List Char) : Nat :=
  cs.foldl (fun n c => 36 * n + digit36 c) 0

/-- Runs that follow one another: where each starts, and the value it has. -/
structure Runs (α : Type) where
  starts : Array Nat
  values : Array α

/-- The runs with given values and lengths, from code point 0 on. -/
def Runs.ofLengths {α : Type} (items : List (α × Nat)) : Runs α :=
  let (_, runs) := items.foldl
    (fun (start, runs) (value, length) =>
      (start + length, Runs.mk (runs.starts.push start) (runs.values.push value)))
    (0, Runs.mk #[] #[])
  runs

/-- The last index from `low` on and below `high` whose start is at most `n`;
`low` itself if there is none behind it. -/
def lastStart (starts : Array Nat) (n low high : Nat) : Nat :=
  if low + 1 < high then
    let middle := (low + high) / 2
    if starts[middle]?.any (· ≤ n) then lastStart starts n middle high
    else lastStart starts n low middle
  else low
termination_by high - low

/-- The value of a code point. -/
def Runs.get? {α : Type} (r : Runs α) (n : Nat) : Option α :=
  r.values[lastStart r.starts n 0 r.starts.size]?

/-- The set that a text of alternating gaps and lengths writes. -/
def setOfGaps (text : String) : Runs Bool :=
  let (items, _) := (pieces text).foldl
    (fun (items, inside) piece => ((inside, number36 piece) :: items, !inside))
    (([] : List (Bool × Nat)), false)
  Runs.ofLengths ((false, 1) :: items).reverse

def Runs.holds (r : Runs Bool) (c : Char) : Bool :=
  (r.get? c.toNat).getD false

end UrlRouting.Unicode
