import UrlRouting.Regex.SizeLimit

/-!
# The size of programs

What the engine's limit is taken to be where expressions are really read: ten
mebibytes, for a program with one state of 32 bytes for each byte of literal
text. Classes are only estimated, by what their characters have to be told apart
by in UTF-8.
-/

namespace UrlRouting.Regex

def CharClass.programSize : CharClass → Nat
  | empty => 32
  | range first last =>
    if first = last then 32 * first.utf8Size
    else if last.toNat < 128 then 72
    else 300
  | shorthand .digit => 3500
  | shorthand .space => 700
  | shorthand .word => 46000
  | property _ => 12000
  | complement a => a.programSize + 300
  | union a b => a.programSize + b.programSize
  | intersection a b => a.programSize + b.programSize
  | difference a b => a.programSize + b.programSize
  | symmetricDifference a b => a.programSize + b.programSize
  | folded a => a.programSize + 32
  | foldedAscii a => a.programSize + 16

/-- A bounded loop is written out as often as it may be gone through. -/
def Pattern.programSize : Pattern → Nat
  | .empty => 0
  | .take cls => cls.programSize
  | .test _ => 32
  | .group _ _ inner => programSize inner + 64
  | .seq a b => programSize a + programSize b
  | .alt a b => programSize a + programSize b + 40
  | .loop min none _ body => Nat.max min 1 * programSize body + 80
  | .loop _ (some max) _ body => max * (programSize body + 40) + 32

theorem programSize_shift (offset : Nat) (e : Pattern) :
    Pattern.programSize (e.shift offset) = Pattern.programSize e := by
  induction e with
  | empty => rfl
  | take leaf => rfl
  | test leaf => rfl
  | group number name inner ih => rw [Expr.shift, Pattern.programSize, Pattern.programSize, ih]
  | seq a b iha ihb => rw [Expr.shift, Pattern.programSize, Pattern.programSize, iha, ihb]
  | alt a b iha ihb => rw [Expr.shift, Pattern.programSize, Pattern.programSize, iha, ihb]
  | loop min max greedy body ih =>
    cases max <;> rw [Expr.shift, Pattern.programSize, Pattern.programSize, ih]

/-- A part takes up no more than the whole. -/
theorem Pattern.PartOf.programSize_le {e e' : Pattern} (h : PartOf e e') :
    programSize e ≤ programSize e' := by
  induction h with
  | refl e => exact Nat.le_refl _
  | shift offset _ ih => rwa [programSize_shift]
  | group number name _ ih => exact Nat.le_trans ih (Nat.le_add_right ..)
  | optional greedy _ ih =>
    simp only [programSize]
    omega
  | seq _ _ iha ihb => exact Nat.add_le_add iha ihb
  | left b _ ih => exact Nat.le_trans ih (Nat.le_add_right ..)
  | right a _ ih => exact Nat.le_trans ih (Nat.le_add_left ..)

instance : SizeLimit where
  allows e := Pattern.programSize e ≤ 10 * (1 <<< 20)
  allows_part hpart h :=
    decide_eq_true (Nat.le_trans hpart.programSize_le (of_decide_eq_true h))

end UrlRouting.Regex
