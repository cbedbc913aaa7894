import UrlRouting.Regex.Expr

/-!
# The size limit

The engine works with a program for an expression, and it refuses an expression
whose program would take up too much room. How much room that is, and how much
there is, is the engine's own matter and left open here. All that is relied on
is that an expression does not take up more room than one that has it as a part.
-/

namespace UrlRouting.Regex

/-- The second expression is the first one with more around it or between its
parts. Numbers of groups make no difference. -/
inductive Pattern.PartOf : Pattern → Pattern → Prop
  | refl (e : Pattern) : PartOf e e
  | shift {e e' : Pattern} (offset : Nat) (h : PartOf e e') : PartOf e (e'.shift offset)
  | group {e inner : Pattern} (number : Nat) (name : Option String) (h : PartOf e inner) :
    PartOf e (.group number name inner)
  | optional {e body : Pattern} (greedy : Bool) (h : PartOf e body) :
    PartOf e (.loop 0 (some 1) greedy body)
  | seq {a a' b b' : Pattern} (ha : PartOf a a') (hb : PartOf b b') :
    PartOf (.seq a b) (.seq a' b')
  | left {e a : Pattern} (b : Pattern) (h : PartOf e a) : PartOf e (.seq a b)
  | right {e b : Pattern} (a : Pattern) (h : PartOf e b) : PartOf e (.seq a b)

/-- A size limit says for which expressions there is room. -/
class SizeLimit where
  allows : Pattern → Bool
  allows_part {e e' : Pattern} : Pattern.PartOf e e' → allows e' = true → allows e = true

/-- There is room for an expression. -/
def Pattern.WithinLimit [SizeLimit] (e : Pattern) : Prop :=
  SizeLimit.allows e = true

instance [SizeLimit] (e : Pattern) : Decidable (Pattern.WithinLimit e) :=
  inferInstanceAs (Decidable (_ = true))

theorem Pattern.WithinLimit.part [SizeLimit] {e e' : Pattern} (h : e'.WithinLimit)
    (hpart : Pattern.PartOf e e') : e.WithinLimit :=
  SizeLimit.allows_part hpart h

end UrlRouting.Regex
