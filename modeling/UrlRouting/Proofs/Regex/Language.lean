import UrlRouting.Proofs.Regex.Fragments
import UrlRouting.Proofs.Regex.Pieces
import UrlRouting.Proofs.Regex.Soundness

/-!
# What an expression without tests takes

Without tests, whether an expression takes a piece of a text does not hang on
what stands around the piece. So the pieces that it takes are texts of their
own, and they are the same in every text and under all numbers of its groups.

Main statement: `reaches_iff_takes`.
-/

namespace UrlRouting.Regex

/-! ## The texts that an expression takes -/

/-- A text made up of so many texts of a kind, one behind the other. -/
def Repeats (takes : List Char → Prop) : Nat → List Char → Prop
  | 0, text => text = []
  | n + 1, text => ∃ first rest, text = first ++ rest ∧ takes first ∧ Repeats takes n rest

/-- The texts that an expression takes as a whole. A test is taken to fail. -/
def Pattern.Takes : Pattern → List Char → Prop
  | .empty, text => text = []
  | .take cls, text => ∃ c, text = [c] ∧ cls.contains c = true
  | .test _, _ => False
  | .group _ _ inner, text => Takes inner text
  | .seq a b, text => ∃ first rest, text = first ++ rest ∧ Takes a first ∧ Takes b rest
  | .alt a b, text => Takes a text ∨ Takes b text
  | .loop min none _ body, text => ∃ n, min ≤ n ∧ Repeats (Takes body) n text
  | .loop min (some max) _ body, text =>
    ∃ n, min ≤ n ∧ n ≤ min + (max - min) ∧ Repeats (Takes body) n text

theorem Repeats.congr {takes takes' : List Char → Prop}
    (h : ∀ text, takes text ↔ takes' text)
    (n : Nat) (text : List Char) : Repeats takes n text ↔ Repeats takes' n text := by
  rw [show takes = takes' from funext fun text => propext (h text)]

/-- The numbers of the groups do not matter. -/
theorem Pattern.takes_shift (offset : Nat) (e : Pattern) (text : List Char) :
    Pattern.Takes (e.shift offset) text ↔ e.Takes text := by
  induction e generalizing text with
  | empty => exact Iff.rfl
  | take leaf => exact Iff.rfl
  | test leaf => exact Iff.rfl
  | group number name inner ih => exact ih text
  | seq a b iha ihb =>
    show (∃ first rest, text = first ++ rest ∧ Takes (a.shift offset) first ∧
      Takes (b.shift offset) rest) ↔ _
    simp only [iha, ihb]
    rfl
  | alt a b iha ihb => exact or_congr (iha text) (ihb text)
  | loop min max greedy body ih =>
    cases max with
    | none => exact exists_congr fun n => and_congr_right fun _ => Repeats.congr ih n text
    | some max =>
      exact exists_congr fun n => and_congr_right fun _ => and_congr_right fun _ =>
        Repeats.congr ih n text

/-- The piece of a text from one position to another is one of a kind. -/
def PieceOf (takes : List Char → Prop) (text : List Char) (i j : Nat) : Prop :=
  ∃ piece rest, text.drop i = piece ++ rest ∧ i + piece.length = j ∧ takes piece

section PieceOf

variable {takes : List Char → Prop} {text : List Char}

theorem pieceOf_nil (i j : Nat) : PieceOf (· = []) text i j ↔ j = i := by
  constructor
  · rintro ⟨piece, rest, -, rfl, rfl⟩
    rfl
  · rintro rfl
    exact ⟨[], text.drop j, rfl, rfl, rfl⟩

/-- Pieces one behind the other make up a piece. -/
theorem pieceOf_append (takes' : List Char → Prop) (i j : Nat) :
    PieceOf (fun piece => ∃ first rest, piece = first ++ rest ∧ takes first ∧ takes' rest)
        text i j ↔ ∃ k, PieceOf takes text i k ∧ PieceOf takes' text k j := by
  constructor
  · rintro ⟨-, tail, hdrop, rfl, first, rest, rfl, hfirst, hrest⟩
    rw [List.append_assoc] at hdrop
    refine ⟨i + first.length, ⟨first, rest ++ tail, hdrop, rfl, hfirst⟩, rest, tail, ?_, ?_, hrest⟩
    · exact (eq_drop_of_drop_eq_append hdrop).symm
    · rw [List.length_append, Nat.add_assoc]
  · rintro ⟨_, ⟨first, tail, hdrop, rfl, hfirst⟩, rest, behind, hdrop', rfl, hrest⟩
    have htail := eq_drop_of_drop_eq_append hdrop
    refine ⟨first ++ rest, behind, ?_, ?_, first, rest, rfl, hfirst, hrest⟩
    · rw [hdrop, htail, hdrop', List.append_assoc]
    · rw [List.length_append, Nat.add_assoc]

theorem rounds_iff_repeats {step : Nat → Nat → Prop}
    (h : ∀ i j, step i j ↔ PieceOf takes text i j) (n i j : Nat) :
    Rounds step n i j ↔ PieceOf (Repeats takes n) text i j := by
  induction n generalizing i with
  | zero => exact (pieceOf_nil i j).symm
  | succ n ih =>
    rw [show PieceOf (Repeats takes (n + 1)) text i j ↔ _ from pieceOf_append _ i j]
    exact exists_congr fun k => and_congr (h i k) (ih k)

end PieceOf

/-- An expression without tests leads from one position to another exactly if it
takes the piece of the text in between. -/
theorem reaches_iff_takes {P : Nat → Option String → Prop} {e : Pattern}
    (h : e.All P fun _ => False) (text : List Char) (i j : Nat) :
    (e.on text).Reaches i j ↔ PieceOf e.Takes text i j := by
  induction e generalizing i j with
  | empty => exact (pieceOf_nil i j).symm
  | take cls =>
    show Positions.has (charPositions cls.contains text) i = true ∧ j = i + 1 ↔ _
    rw [has_charPositions]
    constructor
    · rintro ⟨hany, rfl⟩
      obtain ⟨c, hget, hc⟩ := (Option.any_eq_true _ _).mp hany
      exact ⟨[c], text.drop (i + 1), drop_eq_cons_iff.mpr ⟨hget, rfl⟩, rfl, c, rfl, hc⟩
    · rintro ⟨-, rest, hdrop, rfl, c, rfl, hc⟩
      refine ⟨?_, rfl⟩
      rw [(drop_eq_cons_iff.mp hdrop).1]
      exact hc
  | test leaf => exact h.elim
  | group number name inner ih => exact ih h.2 i j
  | seq a b iha ihb =>
    rw [show PieceOf (Pattern.Takes (.seq a b)) text i j ↔ _ from pieceOf_append _ i j]
    exact exists_congr fun k => and_congr (iha h.1 i k) (ihb h.2 k j)
  | alt a b iha ihb =>
    show (Pattern.on a text).Reaches i j ∨ (Pattern.on b text).Reaches i j ↔ _
    rw [iha h.1, ihb h.2]
    constructor
    · rintro (⟨piece, rest, hdrop, hj, ha⟩ | ⟨piece, rest, hdrop, hj, hb⟩)
      · exact ⟨piece, rest, hdrop, hj, .inl ha⟩
      · exact ⟨piece, rest, hdrop, hj, .inr hb⟩
    · rintro ⟨piece, rest, hdrop, hj, ha | hb⟩
      · exact .inl ⟨piece, rest, hdrop, hj, ha⟩
      · exact .inr ⟨piece, rest, hdrop, hj, hb⟩
  | loop min max greedy body ih =>
    have hrounds := rounds_iff_repeats (ih h)
    cases max with
    | none =>
      show (∃ n, min ≤ n ∧ Rounds (Pattern.on body text).Reaches n i j) ↔ _
      simp only [hrounds]
      constructor
      · rintro ⟨n, hn, piece, rest, hdrop, hj, hpiece⟩
        exact ⟨piece, rest, hdrop, hj, n, hn, hpiece⟩
      · rintro ⟨piece, rest, hdrop, hj, n, hn, hpiece⟩
        exact ⟨n, hn, piece, rest, hdrop, hj, hpiece⟩
    | some max =>
      show (∃ n, min ≤ n ∧ n ≤ min + (max - min) ∧ Rounds (Pattern.on body text).Reaches n i j) ↔ _
      simp only [hrounds]
      constructor
      · rintro ⟨n, hn, hmax, piece, rest, hdrop, hj, hpiece⟩
        exact ⟨piece, rest, hdrop, hj, n, hn, hmax, hpiece⟩
      · rintro ⟨piece, rest, hdrop, hj, n, hn, hmax, hpiece⟩
        exact ⟨n, hn, hmax, piece, rest, hdrop, hj, hpiece⟩

/-! ## Between anchors -/

/-- An expression without tests between anchors matches the texts that it takes. -/
theorem isSome_search_anchored {P : Nat → Option String → Prop} {e : Pattern}
    (h : e.All P fun _ => False) (text : List Char) :
    (Pattern.search (Expr.concat [.test .textStart, e, .test .textEnd]) text).isSome = true ↔
      e.Takes text := by
  rw [show [.test .textStart, e, .test .textEnd] =
    Expr.test .textStart :: ([e] ++ [Expr.test .textEnd]) from rfl, search_anchored]
  have hstarts : (Plan.startsEach ([e].map (Pattern.on · text)) (endPositions text)).has 0 = true ↔
      e.Takes text := by
    show (Plan.starts (e.on text) (endPositions text)).has 0 = true ↔ _
    rw [Plan.has_starts]
    simp only [reaches_iff_takes h, has_endPositions, decide_eq_true_eq]
    constructor
    · rintro ⟨_, ⟨piece, rest, hdrop, rfl, hpiece⟩, hlength⟩
      rw [List.drop_zero] at hdrop
      obtain rfl : rest = [] := by
        have := congrArg List.length hdrop
        rw [List.length_append] at this
        exact List.length_eq_zero_iff.mp (by omega)
      rwa [hdrop, List.append_nil]
    · intro htakes
      exact ⟨text.length, ⟨text, [], by simp, by simp, htakes⟩, rfl⟩
  rw [← hstarts]
  split
  · next hstart => exact ⟨fun _ => hstart, fun _ => rfl⟩
  · next hstart => exact ⟨nofun, fun h => absurd h hstart⟩

end UrlRouting.Regex
