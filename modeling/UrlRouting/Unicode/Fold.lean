import UrlRouting.Unicode.CaseData
import UrlRouting.Unicode.Runs

/-!
# Simple case folding

Two characters are the same up to case when they fold to the same one. The
variants of a character are all those that fold as it does.
-/

namespace UrlRouting.Unicode

/-- A run of `count` code points from `first` on, `step` apart, that fold to as
many code points from `target` on. -/
structure FoldRun where
  first : Nat
  count : Nat
  step : Nat
  target : Nat
deriving DecidableEq, Repr

/-- Reads the runs four numbers at a time. -/
def foldRunsOf : List Nat → List FoldRun
  | first :: count :: step :: target :: rest => ⟨first, count, step, target⟩ :: foldRunsOf rest
  | _ => []

def foldTable : List FoldRun :=
  foldRunsOf ((pieces foldRuns).map number36)

/-- What a run makes of a code point that it covers. -/
def FoldRun.foldOf? (r : FoldRun) (n : Nat) : Option Nat :=
  if r.first ≤ n ∧ (n - r.first) % r.step = 0 ∧ (n - r.first) / r.step < r.count then
    some (r.target + (n - r.first))
  else none

/-- The code point that a run folds to `n`. -/
def FoldRun.source? (r : FoldRun) (n : Nat) : Option Nat :=
  if r.target ≤ n ∧ (n - r.target) % r.step = 0 ∧ (n - r.target) / r.step < r.count then
    some (r.first + (n - r.target))
  else none

/-- What a code point folds to. -/
def foldCode (n : Nat) : Nat :=
  (foldTable.findSome? (·.foldOf? n)).getD n

/-- The characters that are the same as `c` up to case, itself among them. -/
def caseVariants (c : Char) : List Char :=
  let folded := foldCode c.toNat
  Char.ofNat folded :: (foldTable.filterMap (·.source? folded)).map Char.ofNat

/-- The characters that are the same as `c` up to the case of ASCII letters. -/
def asciiVariants (c : Char) : List Char :=
  [c.toLower, c.toUpper]

end UrlRouting.Unicode
