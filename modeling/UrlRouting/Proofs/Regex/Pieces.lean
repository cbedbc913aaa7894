import UrlRouting.Proofs.Regex.Reading
import UrlRouting.Proofs.Regex.Walks

/-!
# Pieces of a text

Expressions held against a text, in terms of the pieces of the text that they take:
characters in a row take themselves, a run takes a piece of admitted characters, and
the end of the text takes nothing at the end.
-/

namespace UrlRouting.Regex

/-! ## What is left of a text -/

theorem drop_eq_cons_iff {text rest : List Char} {i : Nat} {c : Char} :
    text.drop i = c :: rest ↔ text[i]? = some c ∧ rest = text.drop (i + 1) := by
  constructor
  · intro h
    constructor
    · rw [← List.head?_drop, h]
      rfl
    · rw [← List.tail_drop, h]
      rfl
  · rintro ⟨hget, rfl⟩
    obtain ⟨hlt, rfl⟩ := List.getElem?_eq_some_iff.mp hget
    exact List.drop_eq_getElem_cons hlt

/-- What stands behind a piece is what is left farther on. -/
theorem eq_drop_of_drop_eq_append {text piece rest : List Char} {i : Nat}
    (h : text.drop i = piece ++ rest) : rest = text.drop (i + piece.length) := by
  rw [← List.drop_drop, h, List.drop_left]

theorem add_length_le_of_drop_eq_append {text piece rest : List Char} {i : Nat}
    (hi : i ≤ text.length) (h : text.drop i = piece ++ rest) :
    i + piece.length ≤ text.length := by
  have hlength := congrArg List.length h
  rw [List.length_drop, List.length_append] at hlength
  omega

/-! ## Characters in a row -/

theorem Plan.has_starts_char (c : Char) (text : List Char) (ends : Positions) (i : Nat) :
    (starts ((Pattern.char c).on text) ends).has i = true ↔
      text[i]? = some c ∧ ends.has (i + 1) = true := by
  show Positions.has (charPositions (CharClass.single c).contains text &&& (ends >>> 1)) i =
    true ↔ _
  rw [Positions.has_and, Positions.has_shiftRight_one, has_charPositions, Bool.and_eq_true]
  refine and_congr_left fun _ => ?_
  cases text[i]? with
  | none => simp
  | some d => simp [CharClass.contains_single]

/-- Characters in a row start where the text goes on with them. -/
theorem Plan.has_startsEach_chars (cs text : List Char) (ends : Positions) (i : Nat) :
    (startsEach (cs.map fun c => (Pattern.char c).on text) ends).has i = true ↔
      ∃ rest, text.drop i = cs ++ rest ∧ ends.has (i + cs.length) = true := by
  induction cs generalizing i with
  | nil => simp [startsEach]
  | cons c cs ih =>
    rw [List.map_cons, startsEach, has_starts_char, ih]
    constructor
    · rintro ⟨hget, rest, hdrop, hends⟩
      refine ⟨rest, drop_eq_cons_iff.mpr ⟨hget, hdrop.symm⟩, ?_⟩
      rwa [List.length_cons, Nat.add_comm cs.length, ← Nat.add_assoc]
    · rintro ⟨rest, hdrop, hends⟩
      obtain ⟨hget, hrest⟩ := drop_eq_cons_iff.mp hdrop
      refine ⟨hget, rest, hrest.symm, ?_⟩
      rwa [List.length_cons, Nat.add_comm cs.length, ← Nat.add_assoc] at hends

theorem Plan.walkThrough_chars (cs text : List Char) (ends : Positions) (s : Spot) :
    walkThrough (cs.map fun c => (Pattern.char c).on text) ends s =
      ⟨s.position + cs.length, s.marks⟩ := by
  induction cs generalizing s with
  | nil => rfl
  | cons c cs ih =>
    rw [List.map_cons, walkThrough, ih, List.length_cons, Nat.add_comm cs.length, ← Nat.add_assoc]
    rfl

/-! ## Runs -/

/-- A run takes a piece of admitted characters. -/
theorem run_charPositions_iff (f : Char → Bool) (text : List Char) (i j : Nat) :
    Run (charPositions f text) i j ↔
      ∃ piece rest, text.drop i = piece ++ rest ∧ (∀ c ∈ piece, f c = true) ∧
        i + piece.length = j := by
  constructor
  · intro h
    -- on the length of the run
    obtain ⟨n, rfl⟩ : ∃ n, j = i + n := ⟨j - i, by have := h.1; omega⟩
    induction n generalizing i with
    | zero => exact ⟨[], text.drop i, rfl, by simp, rfl⟩
    | succ n ih =>
      obtain ⟨hleaf, htail⟩ := h.tail (by omega)
      rw [has_charPositions] at hleaf
      obtain ⟨c, hget, hc⟩ : ∃ c, text[i]? = some c ∧ f c = true := by
        cases hget : text[i]? with
        | none => simp [hget] at hleaf
        | some c => exact ⟨c, rfl, by simpa [hget] using hleaf⟩
      have hadd : i + (n + 1) = i + 1 + n := by omega
      rw [hadd] at htail
      obtain ⟨piece, rest, hdrop, hpiece, hlength⟩ := ih (i + 1) htail
      refine ⟨c :: piece, rest, drop_eq_cons_iff.mpr ⟨hget, hdrop.symm⟩, ?_, ?_⟩
      · rintro d hd
        rcases List.mem_cons.mp hd with rfl | hd
        · exact hc
        · exact hpiece d hd
      · rw [List.length_cons]
        omega
  · rintro ⟨piece, rest, hdrop, hpiece, rfl⟩
    induction piece generalizing i with
    | nil => exact run_refl _ i
    | cons c piece ih =>
      obtain ⟨hget, hrest⟩ := drop_eq_cons_iff.mp hdrop
      have hleaf : (charPositions f text).has i = true := by
        rw [has_charPositions, hget]
        exact hpiece c (List.mem_cons_self ..)
      have hadd : i + (c :: piece).length = i + 1 + piece.length := by
        rw [List.length_cons]
        omega
      rw [hadd]
      exact (ih (i + 1) hrest.symm fun d hd => hpiece d (List.mem_cons_of_mem c hd)).cons hleaf

/-! ## The end of the text -/

/-- The positions at which nothing but the end of the text is left. -/
def endPositions (text : List Char) : Positions :=
  Plan.startsEach [Pattern.on (.test .textEnd) text] (Positions.upTo text.length)

theorem has_endPositions (text : List Char) (i : Nat) :
    (endPositions text).has i = decide (i = text.length) := by
  show Positions.has (gapPositions _ none text &&& Positions.upTo text.length) i = _
  rw [Positions.has_and, has_textEnd, Positions.has_upTo]
  by_cases h : i = text.length <;> simp [h]

/-! ## Between anchors -/

/-- Between anchors, expressions start at the start of the text and go through it to the
end. -/
theorem search_anchored (es : List Pattern) (text : List Char) :
    Pattern.search (Expr.concat (.test .textStart :: (es ++ [.test .textEnd]))) text =
      if (Plan.startsEach (es.map (Pattern.on · text)) (endPositions text)).has 0 then
        let last := Plan.walkThrough (es.map (Pattern.on · text)) (endPositions text) ⟨0, []⟩
        some ⟨0, last.position, last.marks⟩
      else none := by
  have hplan : Pattern.on (Expr.concat (.test .textStart :: (es ++ [.test .textEnd]))) text =
      Expr.concat (Pattern.on (.test .textStart) text ::
        (es.map (Pattern.on · text) ++ [Pattern.on (.test .textEnd) text])) := by
    unfold Pattern.on
    rw [Expr.map_concat, List.map_cons, List.map_append]
    rfl
  -- the assertion at the front holds at the start of the text alone
  have hstarts : ∀ i, (Plan.starts (Pattern.on (Expr.concat (.test .textStart ::
      (es ++ [.test .textEnd]))) text) (Positions.upTo text.length)).has i =
        (decide (i = 0) && (Plan.startsEach (es.map (Pattern.on · text))
          (endPositions text)).has i) := by
    intro i
    rw [hplan, Plan.starts_concat, Plan.startsEach, Plan.startsEach_append]
    show Positions.has (gapPositions _ none text &&& _) i = _
    rw [Positions.has_and, has_textStart]
    rfl
  rw [Pattern.search_of_start]
  · rw [hstarts, hplan, Plan.walk_concat, Plan.walkThrough, Plan.walkThrough_append]
    simp only [decide_true, Bool.true_and]
    rfl
  · intro i hi
    rw [hstarts, Bool.and_eq_true] at hi
    exact of_decide_eq_true hi.1

end UrlRouting.Regex
