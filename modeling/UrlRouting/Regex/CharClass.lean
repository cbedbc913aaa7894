import UrlRouting.Unicode.Fold
import UrlRouting.Unicode.Property

/-!
# Character classes

A class is kept as it is written: ranges and properties under set operations.
Whether it contains a character is decided by walking down the operations, so
that no class is ever expanded into its members.
-/

namespace UrlRouting.Regex

/-- The classes that a single escaped letter stands for. -/
inductive Shorthand where
  | digit
  | space
  | word
deriving DecidableEq, Repr

def Shorthand.holds : Shorthand → Char → Bool
  | .digit, c => Unicode.isDecimalDigit c
  | .space, c => isBlank c
  | .word, c => Unicode.isWordChar c

inductive CharClass where
  | empty
  | range (first last : Char)
  | shorthand (s : Shorthand)
  | property (p : Unicode.Property)
  | complement (a : CharClass)
  | union (a b : CharClass)
  | intersection (a b : CharClass)
  | difference (a b : CharClass)
  | symmetricDifference (a b : CharClass)
  /-- All variants, up to case, of the members. -/
  | folded (a : CharClass)
  /-- All variants, up to the case of ASCII letters, of the members. -/
  | foldedAscii (a : CharClass)
deriving DecidableEq, Repr

namespace CharClass

def contains : CharClass → Char → Bool
  | empty, _ => false
  | range first last, c => first ≤ c && c ≤ last
  | shorthand s, c => s.holds c
  | property p, c => p.holds c
  | complement a, c => !a.contains c
  | union a b, c => a.contains c || b.contains c
  | intersection a b, c => a.contains c && b.contains c
  | difference a b, c => a.contains c && !b.contains c
  | symmetricDifference a b, c => a.contains c != b.contains c
  | folded a, c => (Unicode.caseVariants c).any a.contains
  | foldedAscii a, c => (Unicode.asciiVariants c).any a.contains

/-- The class of one character. -/
def single (c : Char) : CharClass :=
  range c c

/-- Every character. -/
def any : CharClass :=
  complement empty

/-- The union of several classes. -/
def ofList : List CharClass → CharClass
  | [] => empty
  | [a] => a
  | a :: rest => union a (ofList rest)

/-- The class of several characters. -/
def ofChars (cs : List Char) : CharClass :=
  ofList (cs.map single)

/-- The ASCII classes that are written between colons. -/
def ofAsciiName? : String → Option CharClass
  | "alnum" => some (ofList [range '0' '9', range 'A' 'Z', range 'a' 'z'])
  | "alpha" => some (ofList [range 'A' 'Z', range 'a' 'z'])
  | "ascii" => some (range '\x00' '\x7f')
  | "blank" => some (ofChars ['\t', ' '])
  | "cntrl" => some (union (range '\x00' '\x1f') (single '\x7f'))
  | "digit" => some (range '0' '9')
  | "graph" => some (range '!' '~')
  | "lower" => some (range 'a' 'z')
  | "print" => some (range ' ' '~')
  | "punct" => some (ofList [range '!' '/', range ':' '@', range '[' '\x60', range '\x7b' '~'])
  | "space" => some (union (range '\t' '\r') (single ' '))
  | "upper" => some (range 'A' 'Z')
  | "word" => some (ofList [range '0' '9', range 'A' 'Z', single '_', range 'a' 'z'])
  | "xdigit" => some (ofList [range '0' '9', range 'A' 'F', range 'a' 'f'])
  | _ => none

/-- A shorthand restricted to ASCII. -/
def ofAsciiShorthand : Shorthand → CharClass
  | .digit => range '0' '9'
  | .space => union (range '\t' '\r') (single ' ')
  | .word => ofList [range '0' '9', range 'A' 'Z', single '_', range 'a' 'z']

end CharClass

example : (CharClass.complement (.ofChars ['/', '.'])).contains 'é' = true := by decide
example : (CharClass.difference (.range 'a' 'z') (.ofChars ['e'])).contains 'e' = false := by decide

end UrlRouting.Regex
