import UrlRouting.Proofs.Regex.Soundness

/-!
# The order of preference

All ways through an expression in the order of preference, as a list: those of
the first alternative before those of the second, and those with another round
of a greedy loop before those without. A loop whose rounds may take nothing has
no order on its rounds alone, because a run does not come back to where it has
been; there the list is that of the runs through the loop that enter no place
twice.

Main statement: `Plan.goesFirst`, that the search goes the first way that leads
to one of the ends.
-/

namespace UrlRouting.Regex

/-! ## All ways in the order of preference -/

/-- So many rounds. -/
def eachRound (round : Spot → List Spot) : Nat → Spot → List Spot
  | 0, s => [s]
  | n + 1, s => (round s).flatMap (eachRound round n)

/-- At most so many rounds; a greedy loop prefers another one to its end. -/
def someRounds (greedy : Bool) (round : Spot → List Spot) : Nat → Spot → List Spot
  | 0, s => [s]
  | n + 1, s =>
    let further := (round s).flatMap (someRounds greedy round n)
    if greedy then further ++ [s] else s :: further

/-- Where the ways through an expression lead, the preferred one first. Between
the first `count` positions, so many rounds that each take something are as many
as a loop can make. -/
def Plan.outcomes (count : Nat) : Plan → Spot → List Spot
  | .empty, s => [s]
  | .take leaf, s => if leaf.has s.position then [⟨s.position + 1, s.marks⟩] else []
  | .test leaf, s => if leaf.has s.position then [s] else []
  | .group number _ inner, s =>
    (outcomes count inner s).map fun u =>
      ⟨u.position, ⟨number, s.position, u.position⟩ :: u.marks⟩
  | .seq a b, s => (outcomes count a s).flatMap (outcomes count b)
  | .alt a b, s => outcomes count a s ++ outcomes count b s
  | .loop min none greedy body, s =>
    if body.advances then
      (eachRound (outcomes count body) min s).flatMap
        (someRounds greedy (outcomes count body) count)
    else
      Trial.outcomes (places (.loop min none greedy body) count)
        ⟨[.go (.loop min none greedy body)], [], s⟩
  | .loop min (some max) greedy body, s =>
    (eachRound (outcomes count body) min s).flatMap
      (someRounds greedy (outcomes count body) (max - min))

/-! ## What is listed is a way -/

section Rounds

variable {round : Spot → List Spot} {step : Spot → Spot → Prop} {n : Nat} {s t : Spot}

theorem rounds_of_mem_eachRound (hround : ∀ s, ∀ t ∈ round s, step s t)
    (h : t ∈ eachRound round n s) : Rounds step n s t := by
  induction n generalizing s with
  | zero => exact List.mem_singleton.mp h
  | succ n ih =>
    obtain ⟨u, hu, hrest⟩ := List.mem_flatMap.mp h
    exact ⟨u, hround s u hu, ih hrest⟩

theorem rounds_of_mem_someRounds {greedy : Bool} (hround : ∀ s, ∀ t ∈ round s, step s t)
    (h : t ∈ someRounds greedy round n s) : ∃ m, m ≤ n ∧ Rounds step m s t := by
  induction n generalizing s with
  | zero => exact ⟨0, Nat.le_refl 0, List.mem_singleton.mp h⟩
  | succ n ih =>
    have hcases : t ∈ (round s).flatMap (someRounds greedy round n) ∨ t = s := by
      cases greedy with
      | true => simpa [someRounds] using h
      | false => simpa [someRounds, or_comm] using h
    rcases hcases with hmem | rfl
    · obtain ⟨u, hu, hrest⟩ := List.mem_flatMap.mp hmem
      obtain ⟨m, hm, hrounds⟩ := ih hrest
      exact ⟨m + 1, Nat.succ_le_succ hm, u, hround s u hu, hrounds⟩
    · exact ⟨0, Nat.zero_le _, rfl⟩

end Rounds

theorem Plan.way_of_mem_outcomes {count : Nat} {e : Plan} {s t : Spot}
    (h : t ∈ e.outcomes count s) : e.Way s t := by
  induction e generalizing s t with
  | empty => exact List.mem_singleton.mp h
  | take leaf =>
    simp only [outcomes, List.mem_ite_nil_right, List.mem_singleton] at h
    exact h
  | test leaf =>
    simp only [outcomes, List.mem_ite_nil_right, List.mem_singleton] at h
    exact h
  | group number name inner ih =>
    obtain ⟨u, hu, rfl⟩ := List.mem_map.mp h
    exact ⟨u, ih hu, rfl⟩
  | seq a b iha ihb =>
    obtain ⟨u, hu, ht⟩ := List.mem_flatMap.mp h
    exact ⟨u, iha hu, ihb ht⟩
  | alt a b iha ihb => exact (List.mem_append.mp h).imp iha ihb
  | loop min max greedy body ih =>
    cases max with
    | none =>
      rw [outcomes] at h
      split at h
      · obtain ⟨u, hu, ht⟩ := List.mem_flatMap.mp h
        obtain ⟨n, -, hrest⟩ := rounds_of_mem_someRounds (fun _ _ => ih) ht
        exact ⟨min + n, Nat.le_add_right _ _,
          (rounds_of_mem_eachRound (fun _ _ => ih) hu).add hrest⟩
      · obtain ⟨u, hway, rfl⟩ := Trial.leads_of_mem_outcomes h
        exact hway
    | some max =>
      obtain ⟨u, hu, ht⟩ := List.mem_flatMap.mp h
      obtain ⟨n, hle, hrest⟩ := rounds_of_mem_someRounds (fun _ _ => ih) ht
      exact ⟨min + n, Nat.le_add_right _ _, Nat.add_le_add_left hle _,
        (rounds_of_mem_eachRound (fun _ _ => ih) hu).add hrest⟩

/-- What advances reaches only positions farther on. -/
theorem Plan.Reaches.lt {e : Plan} {i j : Nat} (h : e.Reaches i j)
    (hadvances : e.advances = true) :
    i < j := by
  induction e generalizing i j with
  | empty => cases hadvances
  | take leaf => exact h.2 ▸ Nat.lt_succ_self i
  | test leaf => cases hadvances
  | group number name inner ih => exact ih h hadvances
  | seq a b iha ihb =>
    obtain ⟨k, ha, hb⟩ := h
    rcases Bool.or_eq_true_iff.mp hadvances with hadv | hadv
    · exact Nat.lt_of_lt_of_le (iha ha hadv) hb.le
    · exact Nat.lt_of_le_of_lt ha.le (ihb hb hadv)
  | alt a b iha ihb =>
    obtain ⟨hfirst, hsecond⟩ := Bool.and_eq_true_iff.mp hadvances
    rcases h with h | h
    · exact iha h hfirst
    · exact ihb h hsecond
  | loop min max greedy body ih =>
    obtain ⟨hmin, hbody⟩ := Bool.and_eq_true_iff.mp hadvances
    have hrounds : ∃ n, min ≤ n ∧ Rounds (Plan.Reaches body) n i j := by
      cases max with
      | none => exact h
      | some max =>
        obtain ⟨n, hn, -, hrounds⟩ := h
        exact ⟨n, hn, hrounds⟩
    obtain ⟨n, hn, hrounds⟩ := hrounds
    cases n with
    | zero => exact absurd (of_decide_eq_true hmin) (Nat.not_lt.mpr hn)
    | succ n =>
      obtain ⟨k, hk, hrest⟩ := hrounds
      exact Nat.lt_of_lt_of_le (ih hk hbody) (hrest.le fun _ _ => Reaches.le)

/-! ## The search goes the first way -/

theorem Positions.Before.repeat {f : Positions → Positions} {count : Nat}
    (hf : ∀ set : Positions, set.Before count → (f set).Before count) {ends : Positions}
    (hends : ends.Before count) (n : Nat) : (Nat.repeat f n ends).Before count := by
  induction n with
  | zero => exact hends
  | succ n ih => exact hf _ ih

theorem Positions.Before.or {ends ends' : Positions} {count : Nat} (h : ends.Before count)
    (h' : ends'.Before count) : Positions.Before (ends ||| ends') count := by
  intro i hi
  rw [has_or, Bool.or_eq_true] at hi
  exact hi.elim (h i) (h' i)

/-- Nothing leads back. -/
theorem Plan.before_starts (e : Plan) {ends : Positions} {count : Nat}
    (h : ends.Before count) :
    (starts e ends).Before count := by
  intro i hi
  obtain ⟨j, hreach, hj⟩ := (has_starts e ends i).mp hi
  exact Nat.lt_of_le_of_lt hreach.le (h j hj)

/-- Of the ways that are listed, the first that leads to one of the ends is the
one that is gone, and there is one exactly from where it is begun. -/
def GoesFirst (count : Nat) (walk : Positions → Spot → Spot)
    (starts : Positions → Positions) (outcomes : Spot → List Spot) : Prop :=
  ∀ ends : Positions, ends.Before count → ∀ s, (outcomes s).find? (ends.has ·.position) =
    if (starts ends).has s.position = true then some (walk ends s) else none

theorem findSome?_of_ite {α β : Type} {l : List α} {f : α → Option β} {g : α → β}
    (q : α → Bool) (h : ∀ a ∈ l, f a = if q a = true then some (g a) else none) :
    l.findSome? f = (l.find? q).map g := by
  induction l with
  | nil => rfl
  | cons a rest ih =>
    rw [List.findSome?_cons, List.find?_cons, h a List.mem_cons_self,
      ih fun b hb => h b (List.mem_cons_of_mem _ hb)]
    cases q a <;> rfl

theorem find?_flatMap_of_ite {l : List Spot} {f : Spot → List Spot} {g : Spot → Spot}
    {p : Spot → Bool} (q : Spot → Bool)
    (h : ∀ u ∈ l, (f u).find? p = if q u = true then some (g u) else none) :
    (l.flatMap f).find? p = (l.find? q).map g := by
  rw [List.find?_flatMap, findSome?_of_ite q h]

section Order

variable {count : Nat} {walk walk' : Positions → Spot → Spot}
  {starts starts' : Positions → Positions} {outcomes outcomes' : Spot → List Spot}

theorem GoesFirst.seq (h : GoesFirst count walk starts outcomes)
    (h' : GoesFirst count walk' starts' outcomes')
    (hstarts' : ∀ ends : Positions, ends.Before count → (starts' ends).Before count) :
    GoesFirst count (fun ends s => walk' ends (walk (starts' ends) s))
      (fun ends => starts (starts' ends)) fun s => (outcomes s).flatMap outcomes' := by
  intro ends hends s
  rw [find?_flatMap_of_ite _ fun u _ => h' ends hends u, h _ (hstarts' ends hends) s]
  split <;> rfl

theorem GoesFirst.eachRound (h : GoesFirst count walk starts outcomes)
    (hstarts : ∀ ends : Positions, ends.Before count → (starts ends).Before count)
    (n : Nat) :
    GoesFirst count (fun ends => walkEach walk (stages starts n ends []))
      (Nat.repeat starts n) (eachRound outcomes n) := by
  induction n with
  | zero => exact fun ends _ s => List.find?_singleton
  | succ n ih =>
    intro ends hends s
    show _ = if _ then some (walkEach walk (stages starts (n + 1) ends []) s) else none
    rw [stages_succ]
    exact h.seq ih (fun _ hset => hset.repeat hstarts n) ends hends s

/-- A loop goes on or stops as its list says, given what leads on. -/
theorem find?_furtherOrNot {greedy canGo ended : Bool} {further : List Spot}
    {p : Spot → Bool} {s u : Spot} (hended : p s = ended)
    (hfurther : further.find? p = if canGo = true then some u else none) :
    (if greedy = true then further ++ [s] else s :: further).find? p =
      if (canGo || ended) = true then
        some (if (if greedy = true then canGo else !ended) = true then u else s)
      else none := by
  cases greedy <;> cases canGo <;> cases ended <;> simp [List.find?_append, hfurther, hended]

/-- Rounds up to a bound. -/
theorem GoesFirst.someRounds (h : GoesFirst count walk starts outcomes)
    (hstarts : ∀ ends : Positions, ends.Before count → (starts ends).Before count)
    (greedy : Bool) (n : Nat) :
    GoesFirst count
      (fun ends => walkSome walk starts greedy ends
        (stages (fun set => ends ||| starts set) n ends []))
      (fun ends => Nat.repeat (fun set => ends ||| starts set) n ends)
      (someRounds greedy outcomes n) := by
  induction n with
  | zero => exact fun ends _ s => List.find?_singleton
  | succ n ih =>
    intro ends hends s
    let widen := fun set => ends ||| starts set
    have hnext : (Nat.repeat widen n ends).Before count :=
      hends.repeat (fun set hset => hends.or (hstarts set hset)) n
    have hfurther : ((outcomes s).flatMap (Regex.someRounds greedy outcomes n)).find?
        (ends.has ·.position) =
          if (starts (Nat.repeat widen n ends)).has s.position = true then
            some (walkSome walk starts greedy ends (stages widen n ends [])
              (walk (Nat.repeat widen n ends) s))
          else none := by
      rw [find?_flatMap_of_ite _ fun u _ => ih ends hends u, h _ hnext s]
      split <;> rfl
    show _ = if Positions.has (ends ||| starts _) s.position = true then
      some (walkSome walk starts greedy ends (stages widen (n + 1) ends []) s) else none
    rw [stages_succ, walkSome, Positions.has_or, Bool.or_comm, Regex.someRounds]
    exact find?_furtherOrNot rfl hfurther

end Order

section Unbounded

variable {count : Nat} {body : Plan} {ends : Positions}

theorem Plan.before_closure (body : Plan) (hends : ends.Before count) :
    (closure (starts body) ends).Before count := by
  intro i hi
  obtain ⟨n, j, hrounds, hj⟩ :=
    (has_closure (has_starts body) (fun _ _ => Reaches.le) ends i).mp hi
  exact Nat.lt_of_le_of_lt (hrounds.le fun _ _ => Reaches.le) (hends j hj)

/-- From where no end can be reached, none is listed. -/
theorem Plan.find?_someRounds_eq_none {greedy : Bool} {n : Nat} {s : Spot}
    (hs : (closure (starts body) ends).has s.position = false) :
    (someRounds greedy (outcomes count body) n s).find? (ends.has ·.position) = none :=
  List.find?_eq_none.mpr fun t ht hended => by
    obtain ⟨m, -, hrounds⟩ := rounds_of_mem_someRounds (fun _ _ => way_of_mem_outcomes) ht
    have hreach : Rounds body.Reaches m s.position t.position := hrounds.map fun _ _ => Way.reaches
    rw [(has_closure (has_starts body) (fun _ _ => Reaches.le) ends _).mpr
      ⟨m, _, hreach, hended⟩] at hs
    cases hs

/-- Rounds without a bound, each of which goes farther on. Neither the list nor
the search runs out of rounds before the last position. -/
theorem Plan.find?_someRounds (hbody : GoesFirst count (walk body) (starts body)
      (outcomes count body))
    (hadvances : body.advances = true) (hends : ends.Before count) (greedy : Bool)
    {n rounds : Nat} {s : Spot} (hs : (closure (starts body) ends).has s.position = true)
    (hn : count ≤ s.position + n)
    (hrounds : (closure (starts body) ends).log2 < s.position + rounds) :
    (someRounds greedy (outcomes count body) n s).find? (ends.has ·.position) =
      some (walkOn (walk body) (starts body) greedy (closure (starts body) ends) ends rounds
        s) := by
  induction n generalizing s rounds with
  | zero => exact absurd (before_closure body hends _ hs) (Nat.not_lt.mpr hn)
  | succ n ih =>
    cases rounds with
    | zero => exact absurd (Positions.le_log2_of_has hs) (Nat.not_le.mpr hrounds)
    | succ rounds =>
      have hbehind : ((closure (starts body) ends).behind s.position).Before count := by
        intro i hi
        rw [Positions.has_behind, Bool.and_eq_true] at hi
        exact before_closure body hends i hi.2
      have hfurther : ((outcomes count body s).flatMap
          (someRounds greedy (outcomes count body) n)).find? (ends.has ·.position) =
            if (starts body ((closure (starts body) ends).behind s.position)).has s.position = true
            then some (walkOn (walk body) (starts body) greedy (closure (starts body) ends) ends
              rounds (walk body ((closure (starts body) ends).behind s.position) s))
            else none := by
        rw [find?_flatMap_of_ite
          (fun u => ((closure (starts body) ends).behind s.position).has u.position)
          fun u hu => ?_, hbody _ hbehind s]
        · split <;> rfl
        · have hlt := (way_of_mem_outcomes hu).reaches.lt hadvances
          rw [Positions.has_behind, decide_eq_true hlt, Bool.true_and]
          cases hclosed : (closure (starts body) ends).has u.position with
          | true => exact ih hclosed (by omega) (by omega)
          | false => exact find?_someRounds_eq_none hclosed
      have hway : ((starts body ((closure (starts body) ends).behind s.position)).has s.position ||
          ends.has s.position) = true := by
        cases hended : ends.has s.position with
        | true => exact Bool.or_true _
        | false => rw [has_starts_behind hs hended, Bool.true_or]
      rw [someRounds, walkOn, find?_furtherOrNot rfl hfurther, if_pos hway]

theorem Plan.goesFirst_rounds (hbody : GoesFirst count (walk body) (starts body)
      (outcomes count body))
    (hadvances : body.advances = true) (greedy : Bool) :
    GoesFirst count
      (fun ends => walkOn (walk body) (starts body) greedy (closure (starts body) ends) ends
        ((closure (starts body) ends).log2 + 1))
      (closure (starts body)) (someRounds greedy (outcomes count body) count) := by
  intro ends hends s
  cases hs : (closure (starts body) ends).has s.position with
  | true => exact find?_someRounds hbody hadvances hends greedy hs (by omega) (by omega)
  | false => exact find?_someRounds_eq_none hs

end Unbounded

theorem Plan.find?_tryOut {e : Plan} {count : Nat} {ends : Positions}
    (hends : ends.Before count) (s : Spot) :
    (Trial.outcomes (e.places count) ⟨[.go e], [], s⟩).find? (ends.has ·.position) =
      if (starts e ends).has s.position = true then some ((tryOut e ends s).getD s) else none := by
  have hbefore : ends.Before (min count (ends.log2 + 1)) := fun i hi =>
    Nat.lt_min.mpr ⟨hends i hi, Nat.lt_succ_of_le (Positions.le_log2_of_has hi)⟩
  have hfree : ∀ p : Place, p.2 < min count (ends.log2 + 1) →
      (p ∈ e.places count ↔ p ∈ e.places (ends.log2 + 1)) := by
    intro p hp
    obtain ⟨hcount, hlog⟩ := Nat.lt_min.mp hp
    simp only [mem_places, hcount, hlog]
  rw [Trial.find?_outcomes_congr hbefore hfree, ← tryOut_eq_find?]
  cases hs : (starts e ends).has s.position with
  | true =>
    obtain ⟨t, htried, -⟩ := tryOut_sound hs
    rw [htried]
    rfl
  | false =>
    cases htried : tryOut e ends s with
    | none => rfl
    | some t =>
      obtain ⟨hway, hended⟩ := way_of_tryOut htried
      rw [(has_starts e ends _).mpr ⟨_, hway.reaches, hended⟩] at hs
      cases hs

/-- The search goes the first way that leads to one of the ends. -/
theorem Plan.goesFirst (count : Nat) (e : Plan) :
    GoesFirst count (walk e) (starts e) (outcomes count e) := by
  induction e with
  | empty => exact fun ends _ s => List.find?_singleton
  | take leaf =>
    intro ends _ s
    show _ = if Positions.has (leaf &&& (ends >>> 1)) s.position = true then _ else none
    rw [Positions.has_and, Positions.has_shiftRight_one, outcomes, walk]
    cases leaf.has s.position <;> simp
  | test leaf =>
    intro ends _ s
    show _ = if Positions.has (leaf &&& ends) s.position = true then _ else none
    rw [Positions.has_and, outcomes, walk]
    cases leaf.has s.position <;> simp
  | group number name inner ih =>
    intro ends hends s
    show ((outcomes count inner s).map _).find? _ = _
    rw [List.find?_map, walk]
    show ((outcomes count inner s).find? (ends.has ·.position)).map _ =
      if (starts inner ends).has s.position = true then _ else none
    rw [ih ends hends s]
    split <;> rfl
  | seq a b iha ihb =>
    intro ends hends s
    rw [walk]
    exact iha.seq ihb (fun _ => before_starts b) ends hends s
  | alt a b iha ihb =>
    intro ends hends s
    show _ = if Positions.has (starts a ends ||| starts b ends) s.position = true then _ else none
    rw [outcomes, List.find?_append, iha ends hends s, ihb ends hends s, Positions.has_or, walk]
    cases (starts a ends).has s.position <;> simp
  | loop min max greedy body ih =>
    have hstarts : ∀ set : Positions, set.Before count → (starts body set).Before count :=
      fun _ => before_starts body
    cases max with
    | none =>
      intro ends hends s
      rw [outcomes, walk]
      split
      · next hadvances =>
        exact (ih.eachRound hstarts min).seq (goesFirst_rounds ih hadvances greedy)
          (fun _ => before_closure body) ends hends s
      · exact find?_tryOut hends s
    | some max =>
      intro ends hends s
      rw [outcomes, walk]
      exact (ih.eachRound hstarts min).seq (ih.someRounds hstarts greedy (max - min)) 
        (fun _ hset => hset.repeat (fun set h => hset.or (hstarts set h)) _) ends hends s

end UrlRouting.Regex
