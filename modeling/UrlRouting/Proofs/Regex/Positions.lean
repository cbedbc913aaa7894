import Mathlib.Data.Nat.Bitwise
import UrlRouting.Regex.Positions

/-!
# Members of sets of positions

Which positions belong to the result of an operation on sets of positions. The leaves
of an expression held against a text succeed where their class contains the next
character, or where their assertion holds.
-/

namespace UrlRouting.Regex

namespace Positions

theorem has_upTo (n p : Nat) : (upTo n).has p = decide (p ≤ n) := by
  unfold has upTo
  rw [Nat.one_shiftLeft, Nat.testBit_two_pow_sub_one]
  exact decide_eq_decide.mpr Nat.lt_succ_iff

theorem has_behind (s : Positions) (p q : Nat) :
    (s.behind p).has q = (decide (p < q) && s.has q) := by
  unfold has behind
  rw [Nat.testBit_shiftLeft, Nat.testBit_shiftRight]
  by_cases h : p < q
  · have hle : q ≥ p + 1 := h
    have hadd : p + 1 + (q - (p + 1)) = q := by omega
    simp [h, hle, hadd]
  · have hlt : ¬ q ≥ p + 1 := by omega
    simp [h, hlt]

theorem has_or (s t : Positions) (p : Nat) : has (s ||| t) p = (s.has p || t.has p) :=
  Nat.testBit_or s t p

theorem has_and (s t : Positions) (p : Nat) : has (s &&& t) p = (s.has p && t.has p) :=
  Nat.testBit_and s t p

theorem has_shiftRight_one (s : Positions) (p : Nat) :
    has (s >>> 1) p = s.has (p + 1) := by
  simp [has, Nat.testBit_shiftRight, Nat.add_comm]

theorem not_has_zero (p : Nat) : has 0 p = false :=
  Nat.zero_testBit p

theorem has_cons_zero (first : Bool) (s : Positions) : (cons first s).has 0 = first := by
  cases first <;> simp [has, cons, Nat.testBit_zero]

theorem has_cons_succ (first : Bool) (s : Positions) (p : Nat) :
    (cons first s).has (p + 1) = s.has p := by
  unfold has cons
  rw [Nat.testBit_succ]
  cases first
  · simp
  · have hhalf : ∀ n : Nat, (2 * n + 1) / 2 = n := fun n => by omega
    rw [Bool.toNat_true, hhalf s]

/-- A member is at most the logarithm of the set, as a number. -/
theorem le_log2_of_has {s : Positions} {p : Nat} (h : s.has p = true) : p ≤ s.log2 := by
  have hge : 2 ^ p ≤ s := Nat.ge_two_pow_of_testBit h
  have hne : s ≠ 0 := by
    rintro rfl
    simp [not_has_zero] at h
  exact (Nat.le_log2 hne).mpr hge

end Positions

/-- A class of one character contains that character alone. -/
theorem CharClass.contains_single (c d : Char) :
    (single c).contains d = decide (d = c) := by
  simp only [single, contains]
  rw [← Bool.decide_and]
  exact decide_eq_decide.mpr ⟨fun h => Char.le_antisymm h.2 h.1, fun h => by simp [h]⟩

/-- A class succeeds where it contains the next character. -/
theorem has_charPositions (f : Char → Bool) (text : List Char) (p : Nat) :
    (charPositions f text).has p = text[p]?.any f := by
  induction text generalizing p with
  | nil => simp [charPositions, Positions.not_has_zero]
  | cons c rest ih =>
    cases p with
    | zero => simp [charPositions, Positions.has_cons_zero]
    | succ p => simp [charPositions, Positions.has_cons_succ, ih]

/-- An assertion succeeds between the neighbours that it accepts. -/
theorem has_gapPositions (f : Option Char → Option Char → Bool) (before : Option Char)
    (text : List Char) (p : Nat) :
    (gapPositions f before text).has p =
      (decide (p ≤ text.length) && f (if p = 0 then before else text[p - 1]?) text[p]?) := by
  induction text generalizing before p with
  | nil =>
    cases p with
    | zero => simp [gapPositions, Positions.has_cons_zero]
    | succ p => simp [gapPositions, Positions.has_cons_succ, Positions.not_has_zero]
  | cons c rest ih =>
    cases p with
    | zero => simp [gapPositions, Positions.has_cons_zero]
    | succ p =>
      rw [gapPositions, Positions.has_cons_succ, ih]
      cases p with
      | zero => simp
      | succ p => simp

/-- The start of the text is its first position. -/
theorem has_textStart (text : List Char) (p : Nat) :
    (gapPositions (fun before after => Look.textStart.holds before after) none text).has p =
      decide (p = 0) := by
  rw [has_gapPositions]
  cases p with
  | zero => simp [Look.holds]
  | succ p =>
    by_cases h : p + 1 ≤ text.length
    · have hlt : p < text.length := h
      simp [Look.holds, List.getElem?_eq_getElem hlt]
    · simp [h]

/-- The end of the text is its last position. -/
theorem has_textEnd (text : List Char) (p : Nat) :
    (gapPositions (fun before after => Look.textEnd.holds before after) none text).has p =
      decide (p = text.length) := by
  rw [has_gapPositions]
  by_cases h : p ≤ text.length
  · rcases Nat.lt_or_ge p text.length with hlt | hge
    · have hne : p ≠ text.length := by omega
      simp [Look.holds, List.getElem?_eq_getElem hlt, hne]
    · have heq : p = text.length := by omega
      simp [Look.holds, heq]
  · have hne : p ≠ text.length := by omega
    simp [h, hne]

end UrlRouting.Regex
