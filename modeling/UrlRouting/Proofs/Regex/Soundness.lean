import UrlRouting.Proofs.Regex.Backtracking
import UrlRouting.Proofs.Regex.Walks

/-!
# The search finds what the expression allows

From a position from which one of the ends can be reached, the preferred way is
a way through the expression and reaches one of them. Loops are the case with
content: their rounds are counted, and those of a loop without a bound go
farther on each, or else its runs are tried out.

Main statement: `way_of_search`, that a match is a way through the expression,
with the marks of the groups on it.
-/

namespace UrlRouting.Regex

/-- From where a body can begin, the preferred way is a step that leads to one
of the ends. -/
def Sound (walk : Positions → Spot → Spot) (starts : Positions → Positions)
    (step : Spot → Spot → Prop) : Prop :=
  ∀ ends s, (starts ends).has s.position = true →
    step s (walk ends s) ∧ ends.has (walk ends s).position = true

/-! ## Bounded rounds -/

theorem repeat_comm {α : Type} (f : α → α) (n : Nat) (a : α) :
    Nat.repeat f n (f a) = f (Nat.repeat f n a) := by
  induction n with
  | zero => rfl
  | succ n ih => exact congrArg f ih

theorem stages_append {α : Type} (f : α → α) (n : Nat) (a : α) (done : List α) :
    stages f n a done = stages f n a [] ++ done := by
  induction n generalizing a done with
  | zero => rfl
  | succ n ih =>
    rw [stages, ih, stages, ih (f a) [a], List.append_assoc, List.singleton_append]

/-- The stages before the last one come first, the farthest of them at the front. -/
theorem stages_succ {α : Type} (f : α → α) (n : Nat) (a : α) :
    stages f (n + 1) a [] = Nat.repeat f n a :: stages f n a [] := by
  induction n generalizing a with
  | zero => rfl
  | succ n ih =>
    calc stages f (n + 2) a [] = stages f (n + 1) (f a) [] ++ [a] :=
          stages_append f (n + 1) (f a) [a]
      _ = Nat.repeat f n (f a) :: (stages f n (f a) [] ++ [a]) := by rw [ih]; rfl
      _ = Nat.repeat f (n + 1) a :: stages f (n + 1) a [] := by
        rw [repeat_comm, ← stages_append]
        rfl

/-- A loop that goes on can do so, and one that stops may end, if it can do either. -/
theorem choice_of_goesOn {greedy canGo ended goesOn : Bool}
    (hgo : (if greedy = true then canGo else !ended) = goesOn)
    (hway : ended = false → canGo = true) :
    (goesOn = true → canGo = true) ∧ (goesOn = false → ended = true) := by
  cases greedy <;> cases canGo <;> cases ended <;> simp_all

section Bounded

variable {walk : Positions → Spot → Spot} {starts : Positions → Positions}
  {step : Spot → Spot → Prop}

/-- The rounds that a loop has to make. -/
theorem walkEach_stages (hbody : Sound walk starts step) (n : Nat)
    (ends : Positions) (s : Spot)
    (hs : (Nat.repeat starts n ends).has s.position = true) :
    Rounds step n s (walkEach walk (stages starts n ends []) s) ∧
      ends.has (walkEach walk (stages starts n ends []) s).position = true := by
  induction n generalizing s with
  | zero => exact ⟨rfl, hs⟩
  | succ n ih =>
    rw [stages_succ]
    obtain ⟨hstep, hnext⟩ := hbody (Nat.repeat starts n ends) s hs
    obtain ⟨hrest, hended⟩ := ih _ hnext
    exact ⟨⟨_, hstep, hrest⟩, hended⟩

/-- The rounds that a loop may make up to a bound. -/
theorem walkSome_stages (hbody : Sound walk starts step) (greedy : Bool) (n : Nat)
    (ends : Positions) (s : Spot)
    (hs : (Nat.repeat (fun set => ends ||| starts set) n ends).has s.position = true) :
    ∃ m, m ≤ n ∧
      Rounds step m s (walkSome walk starts greedy ends
        (stages (fun set => ends ||| starts set) n ends []) s) ∧
      ends.has (walkSome walk starts greedy ends
        (stages (fun set => ends ||| starts set) n ends []) s).position = true := by
  induction n generalizing s with
  | zero => exact ⟨0, Nat.le_refl 0, rfl, hs⟩
  | succ n ih =>
    rw [stages_succ, walkSome]
    change Positions.has (ends ||| starts _) s.position = true at hs
    rw [Positions.has_or, Bool.or_eq_true] at hs
    generalize hgo : (if greedy = true then
      (starts (Nat.repeat (fun set => ends ||| starts set) n ends)).has s.position
      else !ends.has s.position) = goesOn
    obtain ⟨hgoes, hstops⟩ := choice_of_goesOn hgo fun hnot => hs.resolve_left (by simp [hnot])
    cases goesOn with
    | true =>
      obtain ⟨hstep, hlanded⟩ := hbody _ s (hgoes rfl)
      obtain ⟨m, hm, hrest, hended⟩ := ih _ hlanded
      exact ⟨m + 1, Nat.succ_le_succ hm, ⟨_, hstep, hrest⟩, hended⟩
    | false => exact ⟨0, Nat.zero_le _, rfl, hstops rfl⟩

end Bounded

/-! ## Unbounded rounds -/

section Unbounded

variable {body : Plan}

/-- Where a loop may not end but can go on, some round leads farther on. -/
theorem has_starts_behind {ends : Positions} {i : Nat}
    (hclosed : (closure (Plan.starts body) ends).has i = true)
    (hends : ends.has i = false) :
    (Plan.starts body ((closure (Plan.starts body) ends).behind i)).has i = true := by
  have hf := Plan.has_starts body
  obtain ⟨n, j, hrounds, hj⟩ := (has_closure hf (fun _ _ => Plan.Reaches.le) ends i).mp hclosed
  -- the rounds to an end: those that go nowhere are left out, and one must go farther
  induction n with
  | zero =>
    obtain rfl : j = i := hrounds
    rw [hends] at hj
    cases hj
  | succ n ih =>
    obtain ⟨k, hk, hrest⟩ := hrounds
    rcases Nat.eq_or_lt_of_le hk.le with rfl | hlt
    · exact ih hrest
    · refine (hf _ i).mpr ⟨k, hk, ?_⟩
      rw [Positions.has_behind, decide_eq_true hlt, Bool.true_and]
      exact (has_closure hf (fun _ _ => Plan.Reaches.le) ends k).mpr ⟨n, j, hrest, hj⟩

/-- Rounds that each go farther on. As many as the highest position are enough. -/
theorem walkOn_sound (hbody : Sound (Plan.walk body) (Plan.starts body) body.Way)
    (greedy : Bool) (ends : Positions) (rounds : Nat) (s : Spot)
    (hs : (closure (Plan.starts body) ends).has s.position = true)
    (hrounds : (closure (Plan.starts body) ends).log2 < s.position + rounds) :
    ∃ n, Rounds body.Way n s (walkOn (Plan.walk body) (Plan.starts body) greedy
        (closure (Plan.starts body) ends) ends rounds s) ∧
      ends.has (walkOn (Plan.walk body) (Plan.starts body) greedy
        (closure (Plan.starts body) ends) ends rounds s).position = true := by
  induction rounds generalizing s with
  | zero =>
    -- no way on leads from behind the highest position
    have hle := Positions.le_log2_of_has hs
    omega
  | succ rounds ih =>
    rw [walkOn]
    generalize hgo : (if greedy = true then
      (Plan.starts body ((closure (Plan.starts body) ends).behind s.position)).has s.position
      else !ends.has s.position) = goesOn
    obtain ⟨hgoes, hstops⟩ := choice_of_goesOn hgo (has_starts_behind hs)
    cases goesOn with
    | true =>
      obtain ⟨hstep, hlanded⟩ := hbody _ s (hgoes rfl)
      rw [Positions.has_behind, Bool.and_eq_true, decide_eq_true_eq] at hlanded
      obtain ⟨n, hrest, hended⟩ := ih _ hlanded.2 (by omega)
      exact ⟨n + 1, ⟨_, hstep, hrest⟩, hended⟩
    | false => exact ⟨0, rfl, hstops rfl⟩

end Unbounded

/-! ## All expressions -/

theorem Plan.walk_loop_sound {body : Plan}
    (hbody : Sound (walk body) (starts body) body.Way)
    (min : Nat) (max : Option Nat) (greedy : Bool) :
    Sound (walk (.loop min max greedy body)) (starts (.loop min max greedy body))
      (Plan.Way (.loop min max greedy body)) := by
  intro ends s hs
  cases max with
  | some max =>
    change (Nat.repeat (starts body) min (Nat.repeat (fun set => ends ||| starts body set)
      (max - min) ends)).has s.position = true at hs
    rw [walk]
    obtain ⟨hfirst, hmid⟩ := walkEach_stages hbody min _ s hs
    obtain ⟨m, hm, hrest, hended⟩ := walkSome_stages hbody greedy (max - min) ends _ hmid
    exact ⟨⟨min + m, Nat.le_add_right _ _, Nat.add_le_add_left hm _, hfirst.add hrest⟩, hended⟩
  | none =>
    rw [walk]
    split
    · change (Nat.repeat (starts body) min (closure (starts body) ends)).has s.position = true
        at hs
      obtain ⟨hfirst, hmid⟩ := walkEach_stages hbody min _ s hs
      obtain ⟨n, hrest, hended⟩ := walkOn_sound hbody greedy ends
        ((closure (starts body) ends).log2 + 1) _ hmid (by omega)
      exact ⟨⟨min + n, Nat.le_add_right _ _, hfirst.add hrest⟩, hended⟩
    · obtain ⟨t, htried, hway, hended⟩ := tryOut_sound hs
      rw [htried]
      exact ⟨hway, hended⟩

/-- The preferred way leads through the expression to one of the ends. -/
theorem Plan.walk_sound (e : Plan) : Sound (walk e) (starts e) e.Way := by
  induction e with
  | empty =>
    intro ends s hs
    rw [walk]
    exact ⟨rfl, hs⟩
  | take leaf =>
    intro ends s hs
    change Positions.has (leaf &&& (ends >>> 1)) s.position = true at hs
    rw [Positions.has_and, Positions.has_shiftRight_one, Bool.and_eq_true] at hs
    rw [walk]
    exact ⟨⟨hs.1, rfl⟩, hs.2⟩
  | test leaf =>
    intro ends s hs
    change Positions.has (leaf &&& ends) s.position = true at hs
    rw [Positions.has_and, Bool.and_eq_true] at hs
    rw [walk]
    exact ⟨⟨hs.1, rfl⟩, hs.2⟩
  | group number name inner ih =>
    intro ends s hs
    rw [walk]
    obtain ⟨hway, hended⟩ := ih ends s hs
    exact ⟨⟨_, hway, rfl⟩, hended⟩
  | seq a b iha ihb =>
    intro ends s hs
    rw [walk]
    obtain ⟨hfirst, hmid⟩ := iha (starts b ends) s hs
    obtain ⟨hsecond, hended⟩ := ihb ends _ hmid
    exact ⟨⟨_, hfirst, hsecond⟩, hended⟩
  | alt a b iha ihb =>
    intro ends s hs
    change Positions.has (starts a ends ||| starts b ends) s.position = true at hs
    rw [Positions.has_or, Bool.or_eq_true] at hs
    rw [walk]
    split
    · next hfirst =>
      obtain ⟨hstep, hended⟩ := iha ends s hfirst
      exact ⟨.inl hstep, hended⟩
    · next hnot =>
      obtain ⟨hstep, hended⟩ := ihb ends s (hs.resolve_left hnot)
      exact ⟨.inr hstep, hended⟩
  | loop min max greedy body ih => exact walk_loop_sound ih min max greedy

/-- A match is a way through the expression that ends in the text. -/
theorem way_of_search {e : Pattern} {text : List Char} {m : Match}
    (h : Pattern.search e text = some m) :
    (e.on text).Way ⟨m.start, []⟩ ⟨m.stop, m.marks⟩ ∧ m.stop ≤ text.length := by
  obtain ⟨start, hfind, rfl⟩ := Option.map_eq_some_iff.mp h
  obtain ⟨hway, hended⟩ := Plan.walk_sound (e.on text) (Positions.upTo text.length) ⟨start, []⟩
    (List.find?_some hfind)
  rw [Positions.has_upTo, decide_eq_true_eq] at hended
  exact ⟨hway, hended⟩

/-- An expression takes the text from where a match starts to where it stops. -/
theorem reaches_of_search {e : Pattern} {text : List Char} {m : Match}
    (h : Pattern.search e text = some m) : (e.on text).Reaches m.start m.stop :=
  (way_of_search h).1.reaches

/-! ## Anchors -/

/-- Between an anchor at the front and one at the end, an expression takes a text as a
whole or not at all. -/
theorem full_of_search_anchored {es : List Pattern} {text : List Char} {m : Match}
    (h : Pattern.search (Expr.concat (.test .textStart :: es ++ [.test .textEnd])) text = some m) :
    m.start = 0 ∧ m.stop = text.length := by
  have hreach := reaches_of_search h
  rw [List.cons_append, Expr.concat, List.foldl_append] at hreach
  obtain ⟨k, hfront, hend⟩ := hreach
  -- a concatenation groups to the left, so the first anchor stands at the bottom
  have hstart : ∀ (es : List Pattern) (a : Pattern) (i j : Nat),
      (∀ j, (a.on text).Reaches i j → i = 0) →
        (Pattern.on (es.foldl Expr.seq a) text).Reaches i j → i = 0 := by
    intro es
    induction es with
    | nil => exact fun a i j ha hreach => ha j hreach
    | cons e rest ih =>
      intro a i j ha hreach
      refine ih (.seq a e) i j (fun _ hseq => ?_) hreach
      obtain ⟨k, hk, -⟩ := hseq
      exact ha k hk
  have hlast : m.stop = k ∧ k = text.length := by
    obtain ⟨hleaf, hstop⟩ := hend
    change Positions.has (gapPositions _ none text) k = true at hleaf
    rw [has_textEnd, decide_eq_true_eq] at hleaf
    exact ⟨hstop, hleaf⟩
  refine ⟨hstart es (.test .textStart) m.start k (fun j hfirst => ?_) hfront,
    hlast.1.trans hlast.2⟩
  obtain ⟨hleaf, -⟩ := hfirst
  change Positions.has (gapPositions _ none text) m.start = true at hleaf
  rw [has_textStart, decide_eq_true_eq] at hleaf
  exact hleaf

end UrlRouting.Regex
