import UrlRouting.Proofs.Regex.Positions
import UrlRouting.Regex.Reach

/-!
# From where an expression reaches what

`Reaches` says, without sets, that an expression can take the text from one position
to another. Main statement: `Plan.starts` computes the positions from which one of the
given ends is reached, for every expression, loops over nothing included.
-/

namespace UrlRouting.Regex

/-- A number of rounds, each of which leads from a place to a next one. -/
def Rounds {α : Type} (step : α → α → Prop) : Nat → α → α → Prop
  | 0, i, j => j = i
  | n + 1, i, j => ∃ k, step i k ∧ Rounds step n k j

/-- An expression can take the text from one position to another. -/
def Plan.Reaches : Plan → Nat → Nat → Prop
  | .empty, i, j => j = i
  | .take leaf, i, j => leaf.has i = true ∧ j = i + 1
  | .test leaf, i, j => leaf.has i = true ∧ j = i
  | .group _ _ inner, i, j => Plan.Reaches inner i j
  | .seq a b, i, j => ∃ k, Plan.Reaches a i k ∧ Plan.Reaches b k j
  | .alt a b, i, j => Plan.Reaches a i j ∨ Plan.Reaches b i j
  | .loop min none _ body, i, j => ∃ n, min ≤ n ∧ Rounds (Plan.Reaches body) n i j
  | .loop min (some max) _ body, i, j =>
    ∃ n, min ≤ n ∧ n ≤ min + (max - min) ∧ Rounds (Plan.Reaches body) n i j

/-! ## Rounds -/

section Rounds

variable {α : Type} {step : α → α → Prop} {m n : Nat} {i j k : α}

theorem Rounds.add (h : Rounds step m i j) (h' : Rounds step n j k) :
    Rounds step (m + n) i k := by
  induction m generalizing i with
  | zero =>
    change j = i at h
    rw [h] at h'
    rwa [Nat.zero_add]
  | succ m ih =>
    obtain ⟨l, hl, hrest⟩ := h
    rw [Nat.succ_add]
    exact ⟨l, hl, ih hrest⟩

theorem Rounds.split (h : Rounds step (m + n) i k) :
    ∃ j, Rounds step m i j ∧ Rounds step n j k := by
  induction m generalizing i with
  | zero => exact ⟨i, rfl, by rwa [Nat.zero_add] at h⟩
  | succ m ih =>
    rw [Nat.succ_add] at h
    obtain ⟨l, hl, hrest⟩ := h
    obtain ⟨j, hj, hk⟩ := ih hrest
    exact ⟨j, ⟨l, hl, hj⟩, hk⟩

theorem rounds_one : Rounds step 1 i j ↔ step i j := by
  constructor
  · rintro ⟨k, hk, rfl⟩
    exact hk
  · intro h
    exact ⟨j, h, rfl⟩

/-- Rounds between places are rounds between what the places are mapped to. -/
theorem Rounds.map {β : Type} {step' : β → β → Prop} {f : α → β}
    (hstep : ∀ i j, step i j → step' (f i) (f j)) (h : Rounds step n i j) :
    Rounds step' n (f i) (f j) := by
  induction n generalizing i with
  | zero => exact congrArg f h
  | succ n ih =>
    obtain ⟨k, hk, hrest⟩ := h
    exact ⟨f k, hstep i k hk, ih hrest⟩

end Rounds

section Forward

variable {step : Nat → Nat → Prop}

theorem Rounds.le (forward : ∀ i j, step i j → i ≤ j) {n i j : Nat}
    (h : Rounds step n i j) :
    i ≤ j := by
  induction n generalizing i with
  | zero => exact Nat.le_of_eq h.symm
  | succ n ih =>
    obtain ⟨k, hk, hrest⟩ := h
    exact Nat.le_trans (forward i k hk) (ih hrest)

/-- Rounds that stay where they are can be left out, so that no more are needed than
positions are passed. -/
theorem Rounds.without_idle (forward : ∀ i j, step i j → i ≤ j) {n i j : Nat}
    (h : Rounds step n i j) : ∃ m, m ≤ j - i ∧ Rounds step m i j := by
  induction n generalizing i with
  | zero => exact ⟨0, Nat.zero_le _, h⟩
  | succ n ih =>
    obtain ⟨k, hk, hrest⟩ := h
    obtain ⟨m, hm, hrounds⟩ := ih hrest
    -- the first round is idle or goes on
    rcases Nat.eq_or_lt_of_le (forward i k hk) with heq | hlt
    · subst heq
      exact ⟨m, hm, hrounds⟩
    · have hle := hrest.le forward
      exact ⟨m + 1, by omega, k, hk, hrounds⟩

end Forward

theorem Plan.Reaches.le {e : Plan} {i j : Nat} (h : e.Reaches i j) : i ≤ j := by
  induction e generalizing i j with
  | empty => exact Nat.le_of_eq h.symm
  | take leaf => exact h.2 ▸ Nat.le_succ i
  | test leaf => exact Nat.le_of_eq h.2.symm
  | group number name inner ih => exact ih h
  | seq a b iha ihb =>
    obtain ⟨k, ha, hb⟩ := h
    exact Nat.le_trans (iha ha) (ihb hb)
  | alt a b iha ihb =>
    rcases h with h | h
    · exact iha h
    · exact ihb h
  | loop min max greedy body ih =>
    cases max with
    | none =>
      obtain ⟨n, -, hrounds⟩ := h
      exact hrounds.le fun _ _ => ih
    | some max =>
      obtain ⟨n, -, -, hrounds⟩ := h
      exact hrounds.le fun _ _ => ih

/-! ## Sets and rounds -/

section Sets

/-- `f` turns a set into the positions from which a step leads into it. -/
def StepsInto (f : Positions → Positions) (step : Nat → Nat → Prop) : Prop :=
  ∀ s i, (f s).has i = true ↔ ∃ j, step i j ∧ s.has j = true

variable {f : Positions → Positions} {step : Nat → Nat → Prop}

theorem has_repeat (hf : StepsInto f step) (n : Nat) (s : Positions) (i : Nat) :
    (Nat.repeat f n s).has i = true ↔ ∃ j, Rounds step n i j ∧ s.has j = true := by
  induction n generalizing i with
  | zero => exact ⟨fun h => ⟨i, rfl, h⟩, fun ⟨j, hj, h⟩ => hj ▸ h⟩
  | succ n ih =>
    show (f (Nat.repeat f n s)).has i = true ↔ _
    rw [hf]
    constructor
    · rintro ⟨k, hk, hrest⟩
      obtain ⟨j, hj, h⟩ := (ih k).mp hrest
      exact ⟨j, ⟨k, hk, hj⟩, h⟩
    · rintro ⟨j, ⟨k, hk, hj⟩, h⟩
      exact ⟨k, hk, (ih k).mpr ⟨j, hj, h⟩⟩

/-- At most so many rounds, each of which may end the way. -/
theorem has_repeat_widen (hf : StepsInto f step) (n : Nat) (s : Positions) (i : Nat) :
    (Nat.repeat (fun t => s ||| f t) n s).has i = true ↔
      ∃ m j, m ≤ n ∧ Rounds step m i j ∧ s.has j = true := by
  induction n generalizing i with
  | zero =>
    constructor
    · intro h
      exact ⟨0, i, Nat.le_refl 0, rfl, h⟩
    · rintro ⟨m, j, hm, hj, h⟩
      obtain rfl : m = 0 := Nat.le_zero.mp hm
      exact hj ▸ h
  | succ n ih =>
    show (s ||| f (Nat.repeat (fun t => s ||| f t) n s)).has i = true ↔ _
    rw [Positions.has_or, Bool.or_eq_true, hf]
    constructor
    · rintro (h | ⟨k, hk, hrest⟩)
      · exact ⟨0, i, Nat.zero_le _, rfl, h⟩
      · obtain ⟨m, j, hm, hj, h⟩ := (ih k).mp hrest
        exact ⟨m + 1, j, Nat.succ_le_succ hm, ⟨k, hk, hj⟩, h⟩
    · rintro ⟨m, j, hm, hj, h⟩
      cases m with
      | zero => exact Or.inl (hj ▸ h)
      | succ m =>
        obtain ⟨k, hk, hrest⟩ := hj
        exact Or.inr ⟨k, hk, (ih k).mpr ⟨m, j, Nat.le_of_succ_le_succ hm, hrest, h⟩⟩

/-- Spreading adds what is reached in at most so many rounds; stopping early loses
nothing, because a set that no round enlarges is closed. -/
theorem has_spread (hf : StepsInto f step) (n : Nat) (s : Positions) (i : Nat) :
    (∃ m j, m ≤ n ∧ Rounds step m i j ∧ s.has j = true) →
      (spread f n s).has i = true := by
  induction n generalizing s i with
  | zero =>
    rintro ⟨m, j, hm, hj, h⟩
    obtain rfl : m = 0 := Nat.le_zero.mp hm
    exact hj ▸ h
  | succ n ih =>
    rintro ⟨m, j, hm, hj, h⟩
    unfold spread
    dsimp only
    split
    · next hclosed =>
      -- every position from which a round leads into `s` belongs to `s`
      have hback : ∀ k l, step k l → s.has l = true → s.has k = true := by
        intro k l hkl hl
        rw [← hclosed, Positions.has_or, (hf s k).mpr ⟨l, hkl, hl⟩, Bool.or_true]
      clear hm
      induction m generalizing i with
      | zero => exact hj ▸ h
      | succ m ihm =>
        obtain ⟨k, hk, hrest⟩ := hj
        exact hback i k hk (ihm k hrest)
    · apply ih
      -- the set was enlarged by one round, so a way that needs all of them
      -- needs one less now
      rcases Nat.lt_or_ge n m with hlt | hge
      · obtain rfl : m = n + 1 := by omega
        obtain ⟨k, hfirst, hlast⟩ := hj.split
        refine ⟨n, k, Nat.le_refl n, hfirst, ?_⟩
        rw [Positions.has_or, (hf s k).mpr ⟨j, rounds_one.mp hlast, h⟩, Bool.or_true]
      · refine ⟨m, j, hge, hj, ?_⟩
        rw [Positions.has_or, h, Bool.true_or]

theorem rounds_of_has_spread (hf : StepsInto f step) (n : Nat) (s : Positions) (i : Nat)
    (h : (spread f n s).has i = true) : ∃ m j, Rounds step m i j ∧ s.has j = true := by
  induction n generalizing s with
  | zero => exact ⟨0, i, rfl, h⟩
  | succ n ih =>
    unfold spread at h
    dsimp only at h
    split at h
    · exact ⟨0, i, rfl, h⟩
    · obtain ⟨m, k, hrounds, hk⟩ := ih _ h
      rw [Positions.has_or, Bool.or_eq_true, hf] at hk
      rcases hk with hk | ⟨j, hkj, hj⟩
      · exact ⟨m, k, hrounds, hk⟩
      · exact ⟨m + 1, j, hrounds.add (rounds_one.mpr hkj), hj⟩

/-- The closure of a set holds exactly what reaches the set in any number of rounds. -/
theorem has_closure (hf : StepsInto f step) (forward : ∀ i j, step i j → i ≤ j)
    (s : Positions) (i : Nat) :
    (closure f s).has i = true ↔ ∃ n j, Rounds step n i j ∧ s.has j = true := by
  constructor
  · exact rounds_of_has_spread hf _ s i
  · rintro ⟨n, j, hrounds, hj⟩
    -- the rounds that count are fewer than the highest position of the set
    obtain ⟨m, hm, hrounds'⟩ := hrounds.without_idle forward
    have hlog := Positions.le_log2_of_has hj
    exact has_spread hf _ s i ⟨m, j, by omega, hrounds', hj⟩

end Sets

/-- A loop reaches what its body reaches in rounds, as many as are asked for and some of
those that are allowed. -/
theorem Plan.has_starts_loop {body : Plan}
    (hbody : StepsInto (Plan.starts body) body.Reaches)
    (min : Nat) (max : Option Nat) (greedy : Bool) :
    StepsInto (Plan.starts (.loop min max greedy body))
      (Plan.Reaches (.loop min max greedy body)) := by
  intro s i
  cases max with
  | none =>
    show (Nat.repeat (starts body) min (closure (starts body) s)).has i = true ↔ _
    rw [has_repeat hbody]
    constructor
    · rintro ⟨k, hfirst, hclosed⟩
      obtain ⟨n, j, hrest, h⟩ := (has_closure hbody (fun _ _ => Reaches.le) s k).mp hclosed
      exact ⟨j, ⟨min + n, Nat.le_add_right _ _, hfirst.add hrest⟩, h⟩
    · rintro ⟨j, ⟨n, hn, hrounds⟩, h⟩
      obtain ⟨n, rfl⟩ := Nat.exists_eq_add_of_le hn
      obtain ⟨k, hfirst, hrest⟩ := hrounds.split
      exact ⟨k, hfirst, (has_closure hbody (fun _ _ => Reaches.le) s k).mpr ⟨n, j, hrest, h⟩⟩
  | some max =>
    show (Nat.repeat (starts body) min
      (Nat.repeat (fun t => s ||| starts body t) (max - min) s)).has i = true ↔ _
    rw [has_repeat hbody]
    constructor
    · rintro ⟨k, hfirst, hoptional⟩
      obtain ⟨n, j, hn, hrest, h⟩ := (has_repeat_widen hbody _ s k).mp hoptional
      exact ⟨j, ⟨min + n, Nat.le_add_right _ _, Nat.add_le_add_left hn _, hfirst.add hrest⟩, h⟩
    · rintro ⟨j, ⟨n, hn, hmax, hrounds⟩, h⟩
      obtain ⟨n, rfl⟩ := Nat.exists_eq_add_of_le hn
      obtain ⟨k, hfirst, hrest⟩ := hrounds.split
      have hle : n ≤ max - min := by omega
      exact ⟨k, hfirst, (has_repeat_widen hbody _ s k).mpr ⟨n, j, hle, hrest, h⟩⟩

/-- The positions from which an expression reaches one of `ends`. -/
theorem Plan.has_starts (e : Plan) : StepsInto (Plan.starts e) e.Reaches := by
  induction e with
  | empty =>
    intro s i
    exact ⟨fun h => ⟨i, rfl, h⟩, fun ⟨j, hj, h⟩ => hj ▸ h⟩
  | take leaf =>
    intro s i
    show Positions.has (leaf &&& (s >>> 1)) i = true ↔ _
    rw [Positions.has_and, Positions.has_shiftRight_one, Bool.and_eq_true]
    exact ⟨fun h => ⟨i + 1, ⟨h.1, rfl⟩, h.2⟩, fun ⟨j, hj, h⟩ => ⟨hj.1, hj.2 ▸ h⟩⟩
  | test leaf =>
    intro s i
    show Positions.has (leaf &&& s) i = true ↔ _
    rw [Positions.has_and, Bool.and_eq_true]
    exact ⟨fun h => ⟨i, ⟨h.1, rfl⟩, h.2⟩, fun ⟨j, hj, h⟩ => ⟨hj.1, hj.2 ▸ h⟩⟩
  | group number name inner ih => exact ih
  | seq a b iha ihb =>
    intro s i
    show (starts a (starts b s)).has i = true ↔ _
    rw [iha]
    constructor
    · rintro ⟨k, hk, hrest⟩
      obtain ⟨j, hj, h⟩ := (ihb s k).mp hrest
      exact ⟨j, ⟨k, hk, hj⟩, h⟩
    · rintro ⟨j, ⟨k, hk, hj⟩, h⟩
      exact ⟨k, hk, (ihb s k).mpr ⟨j, hj, h⟩⟩
  | alt a b iha ihb =>
    intro s i
    show Positions.has (starts a s ||| starts b s) i = true ↔ _
    rw [Positions.has_or, Bool.or_eq_true, iha, ihb]
    constructor
    · rintro (⟨j, hj, h⟩ | ⟨j, hj, h⟩)
      · exact ⟨j, Or.inl hj, h⟩
      · exact ⟨j, Or.inr hj, h⟩
    · rintro ⟨j, hj | hj, h⟩
      · exact Or.inl ⟨j, hj, h⟩
      · exact Or.inr ⟨j, hj, h⟩
  | loop min max greedy body ih => exact has_starts_loop ih min max greedy

end UrlRouting.Regex
