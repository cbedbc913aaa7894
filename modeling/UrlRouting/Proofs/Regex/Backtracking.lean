import UrlRouting.Proofs.Regex.Visits
import UrlRouting.Proofs.Regex.Ways

/-!
# Trying out the runs through a loop

What is left to do on a run says where the run can still lead, so what is found
by trying is a way. And a way is found from wherever there is one, although no
place is entered twice: from a place that was left without success, every step
leads to another such place.

Main statement: `Plan.tryOut_sound`, that trying finds a way through the
expression to one of the ends, from every position from which one of them can be
reached.
-/

namespace UrlRouting.Regex

/-! ## What is left to do on a run -/

/-- What a task does between two spots, given where the open groups began. -/
def Task.Way (starts : List Nat) (s t : Spot) : Task → Prop
  | .go e => e.Way s t
  | .close number =>
    t = ⟨s.position, ⟨number, starts.headD s.position, s.position⟩ :: s.marks⟩
  | .again _ body => ∃ n, Rounds body.Way n s t
  | .upTo count _ body => ∃ n, n ≤ count ∧ Rounds body.Way n s t
  | .second => t = s

/-- Where the groups began that are open behind a task. -/
def Task.startsBehind (starts : List Nat) : Task → List Nat
  | .close _ => starts.tail
  | _ => starts

/-- The tasks lead from one spot to another. -/
def Leads : List Task → List Nat → Spot → Spot → Prop
  | [], _, s, t => t = s
  | task :: rest, starts, s, t =>
    ∃ u, task.Way starts s u ∧ Leads rest (task.startsBehind starts) u t

theorem mem_roundOrNot {greedy : Bool} {round rest tasks : List Task} :
    tasks ∈ roundOrNot greedy round rest ↔ tasks = round ∨ tasks = rest := by
  cases greedy <;> simp [roundOrNot, or_comm]

theorem leads_replicate {body : Plan} {n : Nat} {rest : List Task} {starts : List Nat}
    {s t : Spot} (h : Leads (List.replicate n (.go body) ++ rest) starts s t) :
    ∃ u, Rounds body.Way n s u ∧ Leads rest starts u t := by
  induction n generalizing s with
  | zero => exact ⟨s, rfl, h⟩
  | succ n ih =>
    obtain ⟨u, hu, hrest⟩ := h
    obtain ⟨v, hv, hrest⟩ := ih hrest
    exact ⟨v, ⟨u, hu, hv⟩, hrest⟩

/-- The rounds that a loop still has to make, and those that it may make after them. -/
theorem leads_loop {min : Nat} {max : Option Nat} {greedy : Bool} {body : Plan}
    {tasks rest : List Task} {starts : List Nat} {s t : Spot}
    (hmem : tasks ∈ Task.choices rest s.position (.go (.loop min max greedy body)))
    (h : Leads tasks starts s t) :
    Leads (.go (.loop min max greedy body) :: rest) starts s t := by
  cases max with
  | none =>
    simp only [Task.choices] at hmem
    split at hmem
    · next hidle =>
      obtain ⟨rfl, -⟩ := hidle
      rcases mem_roundOrNot.mp hmem with rfl | rfl
      · obtain ⟨u, hu, v, ⟨n, hn⟩, hrest⟩ := h
        exact ⟨v, ⟨n + 1, Nat.zero_le _, u, hu, hn⟩, hrest⟩
      · exact ⟨s, ⟨0, Nat.le_refl 0, rfl⟩, h⟩
    · obtain rfl := List.mem_singleton.mp hmem
      obtain ⟨u, hu, v, ⟨n, hn⟩, hrest⟩ := leads_replicate h
      exact ⟨v, ⟨min + n, Nat.le_add_right _ _, hu.add hn⟩, hrest⟩
  | some max =>
    obtain rfl := List.mem_singleton.mp hmem
    obtain ⟨u, hu, v, ⟨n, hle, hn⟩, hrest⟩ := leads_replicate h
    exact ⟨v, ⟨min + n, Nat.le_add_right _ _, Nat.add_le_add_left hle _, hu.add hn⟩, hrest⟩

/-- What a run does after a choice, it does with the task before it. -/
theorem leads_of_mem_choices {task : Task} {tasks rest : List Task} {starts : List Nat}
    {s t : Spot} (hmem : tasks ∈ task.choices rest s.position)
    (h : Leads tasks (task.starts s.position starts)
      ⟨task.position s.position, task.marks s.position starts s.marks⟩ t) :
    Leads (task :: rest) starts s t := by
  cases task with
  | go e =>
    cases e with
    | empty =>
      obtain rfl := List.mem_singleton.mp hmem
      exact ⟨s, rfl, h⟩
    | take leaf =>
      simp only [Task.choices, List.mem_ite_nil_right, List.mem_singleton] at hmem
      obtain ⟨hleaf, rfl⟩ := hmem
      exact ⟨_, ⟨hleaf, rfl⟩, h⟩
    | test leaf =>
      simp only [Task.choices, List.mem_ite_nil_right, List.mem_singleton] at hmem
      obtain ⟨hleaf, rfl⟩ := hmem
      exact ⟨s, ⟨hleaf, rfl⟩, h⟩
    | group number name inner =>
      obtain rfl := List.mem_singleton.mp hmem
      obtain ⟨u, hu, v, rfl, hrest⟩ := h
      exact ⟨_, ⟨u, hu, rfl⟩, hrest⟩
    | seq a b =>
      obtain rfl := List.mem_singleton.mp hmem
      obtain ⟨u, hu, v, hv, hrest⟩ := h
      exact ⟨v, ⟨u, hu, hv⟩, hrest⟩
    | alt a b =>
      simp only [Task.choices, List.mem_cons, List.not_mem_nil, or_false] at hmem
      rcases hmem with rfl | rfl
      · obtain ⟨u, hu, hrest⟩ := h
        exact ⟨u, .inl hu, hrest⟩
      · obtain ⟨u, hu, v, rfl, hrest⟩ := h
        exact ⟨_, .inr hu, hrest⟩
    | loop min max greedy body => exact leads_loop hmem h
  | close number =>
    obtain rfl := List.mem_singleton.mp hmem
    exact ⟨_, rfl, h⟩
  | again greedy body =>
    rcases mem_roundOrNot.mp hmem with rfl | rfl
    · obtain ⟨u, hu, v, ⟨n, hn⟩, hrest⟩ := h
      exact ⟨v, ⟨n + 1, u, hu, hn⟩, hrest⟩
    · exact ⟨s, ⟨0, rfl⟩, h⟩
  | upTo count greedy body =>
    cases count with
    | zero =>
      obtain rfl := List.mem_singleton.mp hmem
      exact ⟨s, ⟨0, Nat.le_refl 0, rfl⟩, h⟩
    | succ count =>
      rcases mem_roundOrNot.mp hmem with rfl | rfl
      · obtain ⟨u, hu, v, ⟨n, hle, hn⟩, hrest⟩ := h
        exact ⟨v, ⟨n + 1, Nat.succ_le_succ hle, u, hu, hn⟩, hrest⟩
      · exact ⟨s, ⟨0, Nat.zero_le _, rfl⟩, h⟩
  | second =>
    obtain rfl := List.mem_singleton.mp hmem
    exact ⟨s, rfl, h⟩

/-- A run can still lead to a spot. -/
def Trial.Leads (r : Trial) (t : Spot) : Prop :=
  Regex.Leads r.tasks r.starts r.spot t

theorem Trial.leads_of_mem_next {r q : Trial} {t : Spot} (hmem : q ∈ r.next)
    (h : q.Leads t) :
    r.Leads t := by
  obtain ⟨tasks, starts, s⟩ := r
  cases tasks with
  | nil => exact absurd hmem List.not_mem_nil
  | cons task rest =>
    obtain ⟨tasks, htasks, rfl⟩ := List.mem_map.mp hmem
    exact leads_of_mem_choices htasks h

/-- Where the runs end that enter no place twice, they lead. -/
theorem Trial.leads_of_mem_outcomes {free : List Place} {r : Trial} {t : Spot}
    (h : t ∈ r.outcomes free) : r.Leads t := by
  induction free, r using Trial.outcomes.induct with
  | case1 free r hmem hdone =>
    rw [outcomes, if_pos hmem, if_pos hdone] at h
    obtain rfl := List.mem_singleton.mp h
    rw [Trial.Leads, hdone]
    rfl
  | case2 free r hmem hnot ih =>
    rw [outcomes, if_pos hmem, if_neg hnot] at h
    obtain ⟨q, hq, ht⟩ := List.mem_flatMap.mp h
    exact leads_of_mem_next hq (ih q ht)
  | case3 free r hmem =>
    rw [outcomes, if_neg hmem] at h
    exact absurd h List.not_mem_nil

/-! ## What was entered in vain -/

/-- Where nothing is found, what was entered is closed under steps and without
success, and all runs that were tried began in it. -/
theorem Trial.closed_of_first_eq_none {ends : Positions} {unseen : List Place}
    {runs : List Trial} (h : Trial.first ends unseen runs = none) :
    ∃ left, left ⊆ unseen ∧ (∀ r ∈ runs, r.place ∉ left) ∧
      ∀ p ∈ unseen, p ∉ left →
        ¬ (p.1 = [] ∧ ends.has p.2 = true) ∧ ∀ q, Place.Step p q → q ∉ left := by
  induction unseen, runs using Trial.first.induct ends with
  | case1 unseen =>
    exact ⟨unseen, List.Subset.refl _, fun r hmem => absurd hmem List.not_mem_nil,
      fun p hmem hnot => absurd hmem hnot⟩
  | case2 unseen r later hunseen hended =>
    rw [Trial.first, if_pos hunseen, if_pos hended] at h
    cases h
  | case3 unseen r later hunseen hnot ih =>
    rw [Trial.first, if_pos hunseen, if_neg hnot] at h
    obtain ⟨left, hsubset, hruns, hclosed⟩ := ih h
    have hnext : ∀ q ∈ r.next, q.place ∉ left := fun q hq => hruns q (List.mem_append_left _ hq)
    have hleft : r.place ∉ left := fun hmem => (mem_remaining.mp (hsubset hmem)).2 rfl
    refine ⟨left, fun p hp => (mem_remaining.mp (hsubset hp)).1, ?_, fun p hp hpleft => ?_⟩
    · rintro q (_ | ⟨_, hq⟩)
      · exact hleft
      · exact hruns q (List.mem_append_right _ hq)
    · -- a step from the place just entered leads to where one of the next runs is
      by_cases heq : p = r.place
      · subst heq
        refine ⟨hnot, fun q hstep => ?_⟩
        obtain ⟨q, hmem, rfl⟩ := Trial.exists_mem_next hstep
        exact hnext q hmem
      · exact hclosed p (mem_remaining.mpr ⟨hp, heq⟩) hpleft
  | case4 unseen r later hseen ih =>
    rw [Trial.first, if_neg hseen] at h
    obtain ⟨left, hsubset, hruns, hclosed⟩ := ih h
    refine ⟨left, hsubset, ?_, hclosed⟩
    rintro q (_ | ⟨_, hq⟩)
    · exact fun hmem => hseen (hsubset hmem)
    · exact hruns q hq

/-! ## The places of a run -/

theorem Plan.go_mem_stations (e : Plan) (rest : List Task) :
    .go e :: rest ∈ e.stations rest := by
  cases e with
  | loop min max greedy body => cases max <;> simp [stations]
  | _ => simp [stations]

theorem Plan.mem_stations_again {min : Nat} {greedy : Bool} {body : Plan}
    {tasks rest : List Task} :
    tasks ∈ stations (.loop min none greedy body) rest ↔
      tasks = .go (.loop min none greedy body) :: rest ∨ tasks = .again greedy body :: rest ∨
        ∃ left ≤ min, tasks ∈
          body.stations (List.replicate left (.go body) ++ .again greedy body :: rest) := by
  simp only [stations, List.mem_cons, List.mem_flatMap, List.mem_range, Nat.lt_succ_iff]

theorem Plan.mem_stations_upTo {min max : Nat} {greedy : Bool} {body : Plan}
    {tasks rest : List Task} :
    tasks ∈ stations (.loop min (some max) greedy body) rest ↔
      tasks = .go (.loop min (some max) greedy body) :: rest ∨
        (∃ left ≤ max - min, tasks = .upTo left greedy body :: rest ∨
          tasks ∈ body.stations (.upTo left greedy body :: rest)) ∨
        ∃ left < min, tasks ∈ body.stations
          (List.replicate left (.go body) ++ .upTo (max - min) greedy body :: rest) := by
  simp only [stations, List.cons_append, List.mem_cons, List.mem_append, List.mem_flatMap,
    List.mem_range, Nat.lt_succ_iff]

/-- What is left of some rounds before something else is that or a station of a
round. -/
theorem Plan.mem_stations_of_rounds (body : Plan) {left n : Nat} (hle : left ≤ n)
    (rest : List Task) :
    List.replicate left (.go body) ++ rest = rest ∨
      ∃ l < n, List.replicate left (.go body) ++ rest ∈
        body.stations (List.replicate l (.go body) ++ rest) := by
  cases left with
  | zero => exact .inl rfl
  | succ left => exact .inr ⟨left, hle, go_mem_stations body _⟩

/-- A run stays at the stations of an expression until it is through with it. -/
def Plan.Confines (e : Plan) : Prop :=
  ∀ ⦃task : Task⦄ ⦃tasks more rest : List Task⦄ ⦃i : Nat⦄, task :: more ∈ e.stations rest →
    tasks ∈ task.choices more i → tasks = rest ∨ tasks ∈ e.stations rest

theorem Plan.confines_again {body : Plan} (hbody : body.Confines) (min : Nat)
    (greedy : Bool) :
    Confines (.loop min none greedy body) := by
  intro task tasks more rest i h hmem
  have hround : ∀ left ≤ min + 1, List.replicate left (.go body) ++ .again greedy body :: rest ∈
      stations (.loop min none greedy body) rest := fun left hle =>
    mem_stations_again.mpr <| .inr <|
      (mem_stations_of_rounds body hle _).imp_right fun ⟨l, hl, hmem⟩ =>
        ⟨l, Nat.le_of_lt_succ hl, hmem⟩
  have hone : .go body :: .again greedy body :: rest ∈ stations (.loop min none greedy body) rest :=
    hround 1 (Nat.succ_le_succ (Nat.zero_le _))
  rcases mem_stations_again.mp h with heq | heq | ⟨left, hle, h⟩
  · obtain ⟨rfl, rfl⟩ := List.cons.inj heq
    simp only [Task.choices] at hmem
    split at hmem
    · rcases mem_roundOrNot.mp hmem with rfl | rfl
      · exact .inr hone
      · exact .inl rfl
    · obtain rfl := List.mem_singleton.mp hmem
      exact .inr (hround min (Nat.le_succ _))
  · obtain ⟨rfl, rfl⟩ := List.cons.inj heq
    rcases mem_roundOrNot.mp hmem with rfl | rfl
    · exact .inr hone
    · exact .inl rfl
  · rcases hbody h hmem with rfl | htasks
    · exact .inr (hround left (Nat.le_succ_of_le hle))
    · exact .inr (mem_stations_again.mpr (.inr (.inr ⟨left, hle, htasks⟩)))

theorem Plan.confines_upTo {body : Plan} (hbody : body.Confines) (min max : Nat)
    (greedy : Bool) :
    Confines (.loop min (some max) greedy body) := by
  intro task tasks more rest i h hmem
  have hupTo : ∀ left ≤ max - min, .upTo left greedy body :: rest ∈
      stations (.loop min (some max) greedy body) rest := fun left hle =>
    mem_stations_upTo.mpr (.inr (.inl ⟨left, hle, .inl rfl⟩))
  have hround : ∀ left ≤ min, List.replicate left (.go body) ++
      .upTo (max - min) greedy body :: rest ∈
        stations (.loop min (some max) greedy body) rest := by
    intro left hle
    rcases mem_stations_of_rounds body hle (.upTo (max - min) greedy body :: rest) with
      heq | ⟨l, hl, hmem⟩
    · rw [heq]
      exact hupTo _ (Nat.le_refl _)
    · exact mem_stations_upTo.mpr (.inr (.inr ⟨l, hl, hmem⟩))
  rcases mem_stations_upTo.mp h with heq | ⟨left, hle, heq | h⟩ | ⟨left, hlt, h⟩
  · obtain ⟨rfl, rfl⟩ := List.cons.inj heq
    obtain rfl := List.mem_singleton.mp hmem
    exact .inr (hround min (Nat.le_refl _))
  · obtain ⟨rfl, rfl⟩ := List.cons.inj heq
    cases left with
    | zero => exact .inl (List.mem_singleton.mp hmem)
    | succ left =>
      rcases mem_roundOrNot.mp hmem with rfl | rfl
      · exact .inr (mem_stations_upTo.mpr
          (.inr (.inl ⟨left, Nat.le_of_lt hle, .inr (go_mem_stations body _)⟩)))
      · exact .inl rfl
  · rcases hbody h hmem with rfl | htasks
    · exact .inr (hupTo left hle)
    · exact .inr (mem_stations_upTo.mpr (.inr (.inl ⟨left, hle, .inr htasks⟩)))
  · rcases hbody h hmem with rfl | htasks
    · exact .inr (hround left (Nat.le_of_lt hlt))
    · exact .inr (mem_stations_upTo.mpr (.inr (.inr ⟨left, hlt, htasks⟩)))

theorem Plan.confines (e : Plan) : e.Confines := by
  induction e with
  | empty =>
    intro task tasks more rest i h hmem
    obtain ⟨rfl, rfl⟩ := List.cons.inj (List.mem_singleton.mp h)
    exact .inl (List.mem_singleton.mp hmem)
  | take leaf =>
    intro task tasks more rest i h hmem
    obtain ⟨rfl, rfl⟩ := List.cons.inj (List.mem_singleton.mp h)
    simp only [Task.choices, List.mem_ite_nil_right, List.mem_singleton] at hmem
    exact .inl hmem.2
  | test leaf =>
    intro task tasks more rest i h hmem
    obtain ⟨rfl, rfl⟩ := List.cons.inj (List.mem_singleton.mp h)
    simp only [Task.choices, List.mem_ite_nil_right, List.mem_singleton] at hmem
    exact .inl hmem.2
  | group number name inner ih =>
    intro task tasks more rest i h hmem
    simp only [stations, List.mem_cons, List.cons.injEq] at h ⊢
    rcases h with ⟨rfl, rfl⟩ | ⟨rfl, rfl⟩ | h
    · obtain rfl := List.mem_singleton.mp hmem
      exact .inr (.inr (.inr (go_mem_stations inner _)))
    · exact .inl (List.mem_singleton.mp hmem)
    · rcases ih h hmem with rfl | htasks
      · exact .inr (.inr (.inl rfl))
      · exact .inr (.inr (.inr htasks))
  | seq a b iha ihb =>
    intro task tasks more rest i h hmem
    simp only [stations, List.mem_cons, List.mem_append, List.cons.injEq] at h ⊢
    rcases h with ⟨rfl, rfl⟩ | h | h
    · obtain rfl := List.mem_singleton.mp hmem
      exact .inr (.inr (.inl (go_mem_stations a _)))
    · rcases iha h hmem with rfl | htasks
      · exact .inr (.inr (.inr (go_mem_stations b _)))
      · exact .inr (.inr (.inl htasks))
    · rcases ihb h hmem with rfl | htasks
      · exact .inl rfl
      · exact .inr (.inr (.inr htasks))
  | alt a b iha ihb =>
    intro task tasks more rest i h hmem
    simp only [stations, List.mem_cons, List.mem_append, List.cons.injEq] at h ⊢
    rcases h with ⟨rfl, rfl⟩ | ⟨rfl, rfl⟩ | h | h
    · simp only [Task.choices, List.mem_cons, List.not_mem_nil, or_false] at hmem
      rcases hmem with rfl | rfl
      · exact .inr (.inr (.inr (.inl (go_mem_stations a _))))
      · exact .inr (.inr (.inr (.inr (go_mem_stations b _))))
    · exact .inl (List.mem_singleton.mp hmem)
    · rcases iha h hmem with rfl | htasks
      · exact .inl rfl
      · exact .inr (.inr (.inr (.inl htasks)))
    · rcases ihb h hmem with rfl | htasks
      · exact .inr (.inr (.inl rfl))
      · exact .inr (.inr (.inr (.inr htasks)))
  | loop min max greedy body ih =>
    cases max with
    | none => exact confines_again ih min greedy
    | some max => exact confines_upTo ih min max greedy

/-! ## Paths for what an expression reaches -/

/-- What an expression reaches, some path through it reaches. -/
def Plan.HasPaths (e : Plan) : Prop :=
  ∀ ⦃i j : Nat⦄ (rest : List Task), e.Reaches i j → Place.Path (.go e :: rest, i) (rest, j)

section Rounds

variable {body : Plan} {n i j : Nat}

theorem Plan.HasPaths.rounds (hbody : body.HasPaths) (rest : List Task)
    (h : Rounds body.Reaches n i j) :
    Place.Path (List.replicate n (.go body) ++ rest, i) (rest, j) := by
  induction n generalizing i with
  | zero =>
    obtain rfl := h
    exact .refl
  | succ n ih =>
    obtain ⟨k, hk, hrest⟩ := h
    exact (hbody _ hk).trans (ih hrest)

theorem Plan.HasPaths.again (hbody : body.HasPaths) (greedy : Bool) (rest : List Task)
    (h : Rounds body.Reaches n i j) : Place.Path (.again greedy body :: rest, i)
    (rest, j) := by
  induction n generalizing i with
  | zero =>
    obtain rfl := h
    exact .single (.mk (mem_roundOrNot.mpr (.inr rfl)))
  | succ n ih =>
    obtain ⟨k, hk, hrest⟩ := h
    exact .head (.mk (mem_roundOrNot.mpr (.inl rfl))) ((hbody _ hk).trans (ih hrest))

theorem Plan.HasPaths.upTo (hbody : body.HasPaths) (greedy : Bool) {count : Nat}
    (hle : n ≤ count) (rest : List Task) (h : Rounds body.Reaches n i j) :
    Place.Path (.upTo count greedy body :: rest, i) (rest, j) := by
  induction n generalizing i count with
  | zero =>
    obtain rfl := h
    cases count with
    | zero => exact .single (.mk (List.mem_singleton.mpr rfl))
    | succ count => exact .single (.mk (mem_roundOrNot.mpr (.inr rfl)))
  | succ n ih =>
    obtain ⟨k, hk, hrest⟩ := h
    obtain ⟨count, rfl⟩ := Nat.exists_eq_add_one_of_ne_zero (Nat.ne_zero_of_lt hle)
    exact .head (.mk (mem_roundOrNot.mpr (.inl rfl)))
      ((hbody _ hk).trans (ih (Nat.le_of_succ_le_succ hle) hrest))

end Rounds

theorem Plan.HasPaths.loop {body : Plan} (hbody : body.HasPaths) (min : Nat)
    (max : Option Nat) (greedy : Bool) : HasPaths (.loop min max greedy body) := by
  intro i j rest h
  cases max with
  | none =>
    obtain ⟨n, hmin, hrounds⟩ := h
    by_cases hidle : min = 0 ∧ body.advances = false
    · -- such a loop goes on as if its rounds had begun
      cases n with
      | zero =>
        obtain rfl := hrounds
        exact .single (.mk (by rw [Task.choices, if_pos hidle, mem_roundOrNot]; exact .inr rfl))
      | succ n =>
        obtain ⟨k, hk, hrest⟩ := hrounds
        exact .head (.mk (by rw [Task.choices, if_pos hidle, mem_roundOrNot]; exact .inl rfl))
          ((hbody _ hk).trans (hbody.again greedy _ hrest))
    · obtain ⟨n, rfl⟩ := Nat.exists_eq_add_of_le hmin
      obtain ⟨k, hfirst, hrest⟩ := hrounds.split
      exact .head (.mk (by rw [Task.choices, if_neg hidle]; exact List.mem_singleton.mpr rfl))
        ((hbody.rounds _ hfirst).trans (hbody.again greedy _ hrest))
  | some max =>
    obtain ⟨n, hmin, hmax, hrounds⟩ := h
    obtain ⟨n, rfl⟩ := Nat.exists_eq_add_of_le hmin
    obtain ⟨k, hfirst, hrest⟩ := hrounds.split
    exact .head (.mk (List.mem_singleton.mpr rfl))
      ((hbody.rounds _ hfirst).trans (hbody.upTo greedy (by omega) _ hrest))

theorem Plan.hasPaths (e : Plan) : e.HasPaths := by
  induction e with
  | empty =>
    rintro i j rest rfl
    exact .single (.mk (List.mem_singleton.mpr rfl))
  | take leaf =>
    rintro i j rest ⟨hleaf, rfl⟩
    exact .single (.mk (by simp [Task.choices, hleaf]))
  | test leaf =>
    rintro i j rest ⟨hleaf, rfl⟩
    exact .single (.mk (by simp [Task.choices, hleaf]))
  | group number name inner ih =>
    intro i j rest h
    exact .head (.mk (List.mem_singleton.mpr rfl))
      ((ih _ h).tail (.mk (List.mem_singleton.mpr rfl)))
  | seq a b iha ihb =>
    rintro i j rest ⟨k, ha, hb⟩
    exact .head (.mk (List.mem_singleton.mpr rfl)) ((iha _ ha).trans (ihb _ hb))
  | alt a b iha ihb =>
    rintro i j rest (h | h)
    · exact .head (.mk List.mem_cons_self) (iha _ h)
    · exact .head (.mk (List.mem_cons_of_mem _ List.mem_cons_self))
        ((ihb _ h).tail (.mk (List.mem_singleton.mpr rfl)))
  | loop min max greedy body ih => exact ih.loop min max greedy

/-! ## Trying -/

theorem Plan.mem_places {e : Plan} {count : Nat} {p : Place} :
    p ∈ e.places count ↔ (p.1 = [] ∨ p.1 ∈ e.stations []) ∧ p.2 < count := by
  obtain ⟨tasks, i⟩ := p
  rw [or_and_right]
  simp [places, and_comm]

theorem Plan.mem_places_of_step {e : Plan} {count : Nat} {p q : Place}
    (hp : p ∈ e.places count) (hstep : Place.Step p q) (hlt : q.2 < count) :
    q ∈ e.places count := by
  obtain ⟨hmem⟩ := hstep
  have hstation := (mem_places.mp hp).1.resolve_left (List.cons_ne_nil _ _)
  exact mem_places.mpr ⟨e.confines hstation hmem, hlt⟩

/-- What is found by trying is a way to one of the ends. -/
theorem Plan.way_of_tryOut {e : Plan} {ends : Positions} {s t : Spot}
    (h : tryOut e ends s = some t) : e.Way s t ∧ ends.has t.position = true := by
  rw [tryOut_eq_find?] at h
  have hended := List.find?_some h
  obtain ⟨u, hway, rfl⟩ := Trial.leads_of_mem_outcomes (List.mem_of_find?_eq_some h)
  exact ⟨hway, hended⟩

/-- Trying finds a way to one of the ends from every position from which one can
be reached. -/
theorem Plan.tryOut_sound {e : Plan} {ends : Positions} {s : Spot}
    (hs : (starts e ends).has s.position = true) :
    ∃ t, tryOut e ends s = some t ∧ e.Way s t ∧ ends.has t.position = true := by
  cases htried : tryOut e ends s with
  | some t => exact ⟨t, rfl, way_of_tryOut htried⟩
  | none =>
    exfalso
    obtain ⟨j, hreach, hj⟩ := (has_starts e ends s.position).mp hs
    obtain ⟨left, -, hruns, hclosed⟩ := Trial.closed_of_first_eq_none htried
    have hbefore : ∀ p, Place.Path p ([], j) → p.2 < ends.log2 + 1 := fun p hpath =>
      Nat.lt_succ_of_le ((Place.Path.le hpath).trans (Positions.le_log2_of_has hj))
    -- a path to an end never leaves the places that were entered, and the end
    -- is not one of them
    have hpath : ∀ p, Place.Path p ([], j) → p ∈ e.places (ends.log2 + 1) → p ∉ left → False := by
      intro p hpath
      induction hpath using Relation.ReflTransGen.head_induction_on with
      | refl => exact fun hmem hnot => (hclosed _ hmem hnot).1 ⟨rfl, hj⟩
      | head hstep hrest ih =>
        exact fun hmem hnot => ih (mem_places_of_step hmem hstep (hbefore _ hrest))
          ((hclosed _ hmem hnot).2 _ hstep)
    have hstart := e.hasPaths [] hreach
    exact hpath _ hstart (mem_places.mpr ⟨.inr (go_mem_stations e []), hbefore _ hstart⟩)
      (hruns _ (List.mem_singleton.mpr rfl))

end UrlRouting.Regex
