import UrlRouting.Regex.CharClass
import UrlRouting.Regex.Look

/-!
# Expressions

A regular expression over two kinds of leaves: those that take one character and
those that test a position. As written, the leaves are character classes and
assertions; held against a text, each leaf is the set of positions at which it
succeeds. The shape is the same for both.
-/

namespace UrlRouting.Regex

/-- An expression with leaves `ρ` that take a character and leaves `τ` that test
a position. A loop without `max` has no upper bound; a greedy one prefers to go
on, another one prefers to stop. -/
inductive Expr (ρ τ : Type) where
  | empty
  | take (leaf : ρ)
  | test (leaf : τ)
  | group (number : Nat) (name : Option String) (inner : Expr ρ τ)
  | seq (first second : Expr ρ τ)
  | alt (first second : Expr ρ τ)
  | loop (min : Nat) (max : Option Nat) (greedy : Bool) (body : Expr ρ τ)
deriving DecidableEq, Repr

/-- A regular expression as written. -/
abbrev Pattern := Expr CharClass Look

namespace Expr

variable {ρ τ ρ' τ' : Type}

/-- Replaces every leaf. -/
def map (f : ρ → ρ') (g : τ → τ') : Expr ρ τ → Expr ρ' τ'
  | empty => empty
  | take leaf => take (f leaf)
  | test leaf => test (g leaf)
  | group number name inner => group number name (inner.map f g)
  | seq a b => seq (a.map f g) (b.map f g)
  | alt a b => alt (a.map f g) (b.map f g)
  | loop min max greedy body => loop min max greedy (body.map f g)

/-- The expression with `offset` groups before its own ones. -/
def shift (offset : Nat) : Expr ρ τ → Expr ρ τ
  | empty => empty
  | take leaf => take leaf
  | test leaf => test leaf
  | group number name inner => group (offset + number) name (inner.shift offset)
  | seq a b => seq (a.shift offset) (b.shift offset)
  | alt a b => alt (a.shift offset) (b.shift offset)
  | loop min max greedy body => loop min max greedy (body.shift offset)

/-- One expression after the other. -/
def concat : List (Expr ρ τ) → Expr ρ τ
  | [] => empty
  | e :: rest => rest.foldl seq e

/-- The first expression, or else one of the rest. -/
def choice (first : Expr ρ τ) : List (Expr ρ τ) → Expr ρ τ
  | [] => first
  | e :: rest => alt first (choice e rest)

/-- The groups that have a name, with their numbers, from left to right. -/
def namedGroups : Expr ρ τ → List (Nat × String)
  | empty => []
  | take _ => []
  | test _ => []
  | group number name inner => (name.map (number, ·)).toList ++ inner.namedGroups
  | seq a b => a.namedGroups ++ b.namedGroups
  | alt a b => a.namedGroups ++ b.namedGroups
  | loop _ _ _ body => body.namedGroups

/-- Whether no way through the expression can take a character. -/
def takesNothing : Expr ρ τ → Bool
  | empty => true
  | take _ => false
  | test _ => true
  | group _ _ inner => inner.takesNothing
  | seq a b => a.takesNothing && b.takesNothing
  | alt a b => a.takesNothing && b.takesNothing
  | loop _ max _ body => max.isSome && body.takesNothing

/-- Whether every way through the expression takes a character. -/
def advances : Expr ρ τ → Bool
  | empty => false
  | take _ => true
  | test _ => false
  | group _ _ inner => inner.advances
  | seq a b => a.advances || b.advances
  | alt a b => a.advances && b.advances
  | loop min _ _ body => 0 < min && body.advances

/-- The loop with its bounds brought to normal form: repeating an expression that
takes nothing more than once changes nothing, no repetition at all is the empty
expression, whatever groups it held, and a single one needs no loop. -/
def repeated (min : Nat) (max : Option Nat) (greedy : Bool) (body : Expr ρ τ) :
    Expr ρ τ :=
  let (min, max) :=
    if body.takesNothing then (Nat.min min 1, some ((max.map (Nat.min · 1)).getD 1))
    else (min, max)
  if max = some 0 then empty
  else if min = 1 ∧ max = some 1 then body
  else loop min max greedy body

end Expr

end UrlRouting.Regex
