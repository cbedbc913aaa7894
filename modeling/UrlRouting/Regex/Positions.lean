import UrlRouting.Regex.Expr

/-!
# Sets of positions

A text of `n` characters has the positions `0` to `n`. A set of positions is a
number: position `p` belongs to it when bit `p` is set. Union, intersection and
the step from a character to the one before it are operations on whole numbers.
-/

namespace UrlRouting.Regex

abbrev Positions := Nat

namespace Positions

def has (s : Positions) (p : Nat) : Bool :=
  s.testBit p

/-- The positions `0` to `n`. -/
def upTo (n : Nat) : Positions :=
  (1 <<< (n + 1)) - 1

/-- The members behind `p`. -/
def behind (s : Positions) (p : Nat) : Positions :=
  s >>> (p + 1) <<< (p + 1)

/-- Prepends a position to a set: the members move up by one. -/
def cons (first : Bool) (s : Positions) : Positions :=
  2 * s + first.toNat

end Positions

/-- The positions whose next character satisfies `f`. -/
def charPositions (f : Char → Bool) : List Char → Positions
  | [] => 0
  | c :: rest => Positions.cons (f c) (charPositions f rest)

/-- The positions between whose neighbours `f` holds, behind a character or at
the start of the text. -/
def gapPositions (f : Option Char → Option Char → Bool) (before : Option Char) :
    List Char → Positions
  | [] => Positions.cons (f before none) 0
  | c :: rest => Positions.cons (f before (some c)) (gapPositions f (some c) rest)

/-- An expression held against a text. -/
abbrev Plan := Expr Positions Positions

/-- Holds an expression against a text: every leaf becomes the set of positions
at which it succeeds. -/
def Pattern.on (e : Pattern) (text : List Char) : Plan :=
  e.map (fun cls => charPositions cls.contains text)
    (fun look => gapPositions (fun before after => look.holds before after) none text)

end UrlRouting.Regex
