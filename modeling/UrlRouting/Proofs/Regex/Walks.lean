import UrlRouting.Proofs.Regex.Reaches
import UrlRouting.Regex.Search

/-!
# Preferred ways

What the preferred way through an expression is, for the shapes that the pattern of a
template is made of: expressions in a row, one character again and again, and a part
that may be left out. A greedy run of characters goes as far as the rest allows, a
lazy one stops as soon as the rest allows, and an optional part is taken if the rest
can follow it.
-/

namespace UrlRouting.Regex

/-! ## Expressions in a row -/

/-- The positions from which expressions in a row reach one of `ends`. -/
def Plan.startsEach : List Plan → Positions → Positions
  | [], ends => ends
  | e :: rest, ends => Plan.starts e (Plan.startsEach rest ends)

/-- The preferred way through expressions in a row. -/
def Plan.walkThrough : List Plan → Positions → Spot → Spot
  | [], _, s => s
  | e :: rest, ends, s => Plan.walkThrough rest ends (Plan.walk e (Plan.startsEach rest ends) s)

theorem Plan.startsEach_append (xs ys : List Plan) (ends : Positions) :
    startsEach (xs ++ ys) ends = startsEach xs (startsEach ys ends) := by
  induction xs with
  | nil => rfl
  | cons e rest ih => exact congrArg (starts e) ih

theorem Plan.walkThrough_append (xs ys : List Plan) (ends : Positions) (s : Spot) :
    walkThrough (xs ++ ys) ends s =
      walkThrough ys ends (walkThrough xs (startsEach ys ends) s) := by
  induction xs generalizing s with
  | nil => rfl
  | cons e rest ih =>
    show walkThrough (rest ++ ys) ends (walk e (startsEach (rest ++ ys) ends) s) = _
    rw [ih, startsEach_append]
    rfl

theorem Plan.starts_foldl_seq (e : Plan) (rest : List Plan) (ends : Positions) :
    starts (rest.foldl Expr.seq e) ends = starts e (startsEach rest ends) := by
  induction rest generalizing e with
  | nil => rfl
  | cons next rest ih =>
    rw [List.foldl_cons, ih]
    rfl

theorem Plan.walk_foldl_seq (e : Plan) (rest : List Plan) (ends : Positions) (s : Spot) :
    walk (rest.foldl Expr.seq e) ends s =
      walkThrough rest ends (walk e (startsEach rest ends) s) := by
  induction rest generalizing e with
  | nil => rfl
  | cons next rest ih =>
    rw [List.foldl_cons, ih, walk]
    rfl

theorem Plan.starts_concat (es : List Plan) (ends : Positions) :
    starts (Expr.concat es) ends = startsEach es ends := by
  cases es with
  | nil => rfl
  | cons e rest => exact starts_foldl_seq e rest ends

theorem Plan.walk_concat (es : List Plan) (ends : Positions) (s : Spot) :
    walk (Expr.concat es) ends s = walkThrough es ends s := by
  cases es with
  | nil => simp [Expr.concat, walk, walkThrough]
  | cons e rest => exact walk_foldl_seq e rest ends s

section Shapes

variable {ρ τ ρ' τ' : Type}

theorem Expr.map_concat (f : ρ → ρ') (g : τ → τ') (es : List (Expr ρ τ)) :
    (Expr.concat es).map f g = Expr.concat (es.map (Expr.map f g)) := by
  have hfold : ∀ (rest : List (Expr ρ τ)) (e : Expr ρ τ),
      (rest.foldl Expr.seq e).map f g = (rest.map (Expr.map f g)).foldl Expr.seq (e.map f g) := by
    intro rest
    induction rest with
    | nil => exact fun _ => rfl
    | cons next rest ih => exact fun e => ih (.seq e next)
  cases es with
  | nil => rfl
  | cons e rest => exact hfold rest e

theorem Expr.namedGroups_concat (es : List (Expr ρ τ)) :
    (Expr.concat es).namedGroups = es.flatMap Expr.namedGroups := by
  have hfold : ∀ (rest : List (Expr ρ τ)) (e : Expr ρ τ),
      (rest.foldl Expr.seq e).namedGroups =
        e.namedGroups ++ rest.flatMap Expr.namedGroups := by
    intro rest
    induction rest with
    | nil => simp
    | cons next rest ih =>
      intro e
      rw [List.foldl_cons, ih]
      simp [Expr.namedGroups]
  cases es with
  | nil => rfl
  | cons e rest => rw [List.flatMap_cons]; exact hfold rest e

end Shapes

/-! ## Runs of one kind of character -/

/-- A leaf succeeds at every position from one to before another. -/
def Run (leaf : Positions) (i j : Nat) : Prop :=
  i ≤ j ∧ ∀ p, i ≤ p → p < j → leaf.has p = true

theorem run_refl (leaf : Positions) (i : Nat) : Run leaf i i :=
  ⟨Nat.le_refl i, fun _ hle hlt => absurd hlt (Nat.not_lt.mpr hle)⟩

theorem Run.cons {leaf : Positions} {i j : Nat} (hleaf : leaf.has i = true)
    (h : Run leaf (i + 1) j) : Run leaf i j := by
  refine ⟨Nat.le_of_succ_le h.1, fun p hle hlt => ?_⟩
  rcases Nat.eq_or_lt_of_le hle with rfl | hgt
  · exact hleaf
  · exact h.2 p hgt hlt

theorem Run.tail {leaf : Positions} {i j : Nat} (h : Run leaf i j) (hlt : i < j) :
    leaf.has i = true ∧ Run leaf (i + 1) j :=
  ⟨h.2 i (Nat.le_refl i) hlt, hlt, fun p hle => h.2 p (Nat.le_of_succ_le hle)⟩

theorem rounds_take {leaf : Positions} {n i j : Nat} :
    Rounds (Plan.Reaches (.take leaf)) n i j ↔ j = i + n ∧ Run leaf i j := by
  induction n generalizing i with
  | zero =>
    constructor
    · rintro rfl
      exact ⟨rfl, run_refl leaf _⟩
    · exact fun h => h.1
  | succ n ih =>
    constructor
    · rintro ⟨k, ⟨hleaf, rfl⟩, hrest⟩
      obtain ⟨heq, hrun⟩ := ih.mp hrest
      exact ⟨by omega, hrun.cons hleaf⟩
    · rintro ⟨heq, hrun⟩
      obtain ⟨hleaf, hrest⟩ := hrun.tail (by omega)
      exact ⟨i + 1, ⟨hleaf, rfl⟩, ih.mpr ⟨by omega, hrest⟩⟩

/-- One character again and again, at least once. -/
def Plan.run (greedy : Bool) (leaf : Positions) : Plan :=
  .loop 1 none greedy (.take leaf)

theorem Plan.has_starts_run (greedy : Bool) (leaf ends : Positions) (i : Nat) :
    (starts (run greedy leaf) ends).has i = true ↔
      ∃ j, i < j ∧ Run leaf i j ∧ ends.has j = true := by
  rw [has_starts]
  constructor
  · rintro ⟨j, ⟨n, hn, hrounds⟩, hj⟩
    obtain ⟨heq, hrun⟩ := rounds_take.mp hrounds
    exact ⟨j, by omega, hrun, hj⟩
  · rintro ⟨j, hlt, hrun, hj⟩
    exact ⟨j, ⟨j - i, by omega, rounds_take.mpr ⟨by omega, hrun⟩⟩, hj⟩

theorem has_closure_take (leaf ends : Positions) (i : Nat) :
    (closure (Plan.starts (.take leaf)) ends).has i = true ↔
      ∃ j, Run leaf i j ∧ ends.has j = true := by
  rw [has_closure (Plan.has_starts (.take leaf)) fun _ _ => Plan.Reaches.le]
  constructor
  · rintro ⟨n, j, hrounds, hj⟩
    exact ⟨j, (rounds_take.mp hrounds).2, hj⟩
  · rintro ⟨j, hrun, hj⟩
    exact ⟨j - i, j, rounds_take.mpr ⟨by have := hrun.1; omega, hrun⟩, hj⟩

/-- One more character leads towards an end that lies farther on. -/
theorem has_closure_take_succ {leaf ends : Positions} {i j : Nat} (hlt : i < j)
    (hrun : Run leaf i j) (hj : ends.has j = true) :
    leaf.has i = true ∧ (closure (Plan.starts (.take leaf)) ends).has (i + 1) = true := by
  obtain ⟨hleaf, hrest⟩ := hrun.tail hlt
  exact ⟨hleaf, (has_closure_take leaf ends _).mpr ⟨j, hrest, hj⟩⟩

/-- Where a run of characters that starts at `i` ends: at one of the ends, a greedy one
at the last that it reaches, a lazy one at the first. -/
structure RunEnds (greedy : Bool) (leaf ends : Positions) (i j : Nat) : Prop where
  run : Run leaf i j
  ended : ends.has j = true
  last : greedy = true → ∀ k, j < k → Run leaf i k → ends.has k = false
  first : greedy = false → ∀ k, i ≤ k → k < j → ends.has k = false

theorem RunEnds.cons {greedy : Bool} {leaf ends : Positions} {i j : Nat}
    (hleaf : leaf.has i = true) (hlazy : greedy = false → ends.has i = false)
    (h : RunEnds greedy leaf ends (i + 1) j) : RunEnds greedy leaf ends i j where
  run := h.run.cons hleaf
  ended := h.ended
  last := by
    intro hg k hk hrun
    have hle := h.run.1
    exact h.last hg k hk (hrun.tail (by omega)).2
  first := by
    intro hg k hle hlt
    rcases Nat.eq_or_lt_of_le hle with rfl | hgt
    · exact hlazy hg
    · exact h.first hg k hgt hlt

/-- A round goes on exactly if a character can be taken and an end lies farther on. -/
theorem has_starts_take_behind (leaf closed : Positions) (i : Nat) :
    (Plan.starts (.take leaf) (closed.behind i)).has i =
      (leaf.has i && closed.has (i + 1)) := by
  show Positions.has (leaf &&& (closed.behind i >>> 1)) i = _
  rw [Positions.has_and, Positions.has_shiftRight_one, Positions.has_behind]
  simp

/-- The rounds of a run of characters, counted down. As many rounds as the highest
position are enough, since each goes one position on. -/
theorem walkOn_take (greedy : Bool) (leaf ends : Positions) (rounds : Nat) (s : Spot)
    (hs : (closure (Plan.starts (.take leaf)) ends).has s.position = true)
    (hrounds : (closure (Plan.starts (.take leaf)) ends).log2 < s.position + rounds) :
    ∃ j, walkOn (Plan.walk (.take leaf)) (Plan.starts (.take leaf)) greedy
        (closure (Plan.starts (.take leaf)) ends) ends rounds s = ⟨j, s.marks⟩ ∧
      RunEnds greedy leaf ends s.position j := by
  induction rounds generalizing s with
  | zero =>
    -- no round is left only behind the highest position, where nothing is reached
    have hle := Positions.le_log2_of_has hs
    omega
  | succ rounds ih =>
    obtain ⟨j, hrun, hj⟩ := (has_closure_take leaf ends s.position).mp hs
    unfold walkOn
    dsimp only
    rw [has_starts_take_behind]
    by_cases hgo : (if greedy = true then leaf.has s.position &&
        (closure (Plan.starts (.take leaf)) ends).has (s.position + 1)
        else !ends.has s.position) = true
    · rw [if_pos hgo]
      have hnext : leaf.has s.position = true ∧
          (closure (Plan.starts (.take leaf)) ends).has (s.position + 1) = true := by
        cases greedy with
        | true => simpa using hgo
        | false =>
          have hnot : ends.has s.position = false := by simpa using hgo
          rcases Nat.eq_or_lt_of_le hrun.1 with heq | hlt
          · rw [← heq, hnot] at hj
            cases hj
          · exact has_closure_take_succ hlt hrun hj
      obtain ⟨k, hwalk, hends⟩ := ih ⟨s.position + 1, s.marks⟩ hnext.2 (by simp only; omega)
      refine ⟨k, hwalk, hends.cons hnext.1 ?_⟩
      rintro rfl
      simpa using hgo
    · rw [if_neg hgo]
      have hended : ends.has s.position = true := by
        cases greedy with
        | true =>
          rcases Nat.eq_or_lt_of_le hrun.1 with heq | hlt
          · rw [heq]
            exact hj
          · exact absurd (has_closure_take_succ hlt hrun hj) (by simpa using hgo)
        | false => simpa using hgo
      refine ⟨s.position, rfl, run_refl leaf _, hended, ?_, ?_⟩
      · -- a greedy run that stops here reaches no farther end
        rintro rfl k hlt hrun'
        apply Bool.eq_false_iff.mpr
        intro hk
        exact hgo (by simpa using has_closure_take_succ hlt hrun' hk)
      · intro _ k hle hlt
        omega

/-- The preferred run of characters from a position. -/
theorem Plan.walk_run (greedy : Bool) (leaf ends : Positions) (s : Spot)
    (hs : (starts (run greedy leaf) ends).has s.position = true) :
    ∃ j, walk (run greedy leaf) ends s = ⟨j, s.marks⟩ ∧ leaf.has s.position = true ∧
      RunEnds greedy leaf ends (s.position + 1) j := by
  obtain ⟨k, hlt, hrun, hk⟩ := (has_starts_run greedy leaf ends s.position).mp hs
  obtain ⟨hleaf, hrest⟩ := hrun.tail hlt
  have hclosed : (closure (starts (.take leaf)) ends).has (s.position + 1) = true :=
    (has_closure_take leaf ends _).mpr ⟨k, hrest, hk⟩
  obtain ⟨j, hwalk, hends⟩ := walkOn_take greedy leaf ends
    ((closure (starts (.take leaf)) ends).log2 + 1) ⟨s.position + 1, s.marks⟩ hclosed
    (by simp only; omega)
  refine ⟨j, ?_, hleaf, hends⟩
  simp only [run, walk, Expr.advances, if_true, stages, walkEach]
  exact hwalk

/-! ## Parts that may be left out -/

/-- A part that is taken if possible. -/
def Plan.optional (e : Plan) : Plan :=
  .loop 0 (some 1) true e

theorem Plan.walk_optional (e : Plan) (ends : Positions) (s : Spot) :
    walk (optional e) ends s =
      if (starts e ends).has s.position then walk e ends s else s := by
  simp [optional, walk, stages, walkEach, walkSome]

/-! ## The search -/

/-- An expression that can only start at the start of the text is looked for there. -/
theorem Pattern.search_of_start {e : Pattern} {text : List Char}
    (h : ∀ i, (Plan.starts (e.on text) (Positions.upTo text.length)).has i = true → i = 0) :
    Pattern.search e text =
      if (Plan.starts (e.on text) (Positions.upTo text.length)).has 0 then
        let last := Plan.walk (e.on text) (Positions.upTo text.length) ⟨0, []⟩
        some ⟨0, last.position, last.marks⟩
      else none := by
  unfold Pattern.search
  dsimp only
  split
  · next h0 =>
    rw [List.range_succ_eq_map, List.find?_cons_of_pos h0]
    rfl
  · next h0 =>
    rw [List.find?_eq_none.mpr]
    · rfl
    · intro i _ hi
      exact h0 (h i hi ▸ hi)

end UrlRouting.Regex
