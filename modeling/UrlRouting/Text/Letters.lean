/-!
# Letter case of ASCII

Method names and setting words are compared up to the case of ASCII letters;
every other character, a Kelvin sign or a dotless i too, counts as itself.
-/

namespace UrlRouting

/-- The text with its ASCII capitals made small. -/
def lowerAscii (cs : List Char) : List Char :=
  cs.map Char.toLower

/-- Equality up to the case of ASCII letters. -/
def sameIgnoringCase (xs ys : List Char) : Bool :=
  lowerAscii xs == lowerAscii ys

/-- An ASCII letter or digit. -/
def isAsciiAlphanumeric (c : Char) : Bool :=
  c.isAlphanum

/-- The value of a digit in a base up to 16. -/
def digitValue (base : Nat) (c : Char) : Option Nat :=
  let n :=
    if '0' ≤ c ∧ c ≤ '9' then c.toNat - '0'.toNat
    else if 'a' ≤ c ∧ c ≤ 'z' then c.toNat - 'a'.toNat + 10
    else if 'A' ≤ c ∧ c ≤ 'Z' then c.toNat - 'A'.toNat + 10
    else base
  if n < base then some n else none

/-- The number that a list of digits writes; `none` if one is no digit. -/
def numberValue (base : Nat) (cs : List Char) : Option Nat :=
  cs.foldlM (fun n c => (digitValue base c).map (n * base + ·)) 0

example : sameIgnoringCase ['g', 'E', 't'] ['G', 'e', 'T'] = true := by decide
example : sameIgnoringCase ['\u212a'] ['k'] = false := by decide

end UrlRouting
