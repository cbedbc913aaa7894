import Mathlib.Logic.Relation
import UrlRouting.Proofs.Regex.Positions
import UrlRouting.Regex.Backtrack

/-!
# Runs that enter no place twice

Trying enters no place a second time on any run. That loses nothing: a place
that was left without success would lead to success only by coming back to where
the run has already been.

Main statement: `Plan.tryOut_eq_find?`, that trying finds the first in the order
of preference of all runs that enter no place twice.
-/

namespace UrlRouting.Regex

/-! ## Paths through places -/

/-- From one place to a next one. -/
inductive Place.Step : Place → Place → Prop
  | mk {task : Task} {rest tasks : List Task} {i : Nat} (h : tasks ∈ task.choices rest i) :
    Place.Step (task :: rest, i) (tasks, task.position i)

/-- From one place to another in any number of steps. -/
abbrev Place.Path : Place → Place → Prop :=
  Relation.ReflTransGen Place.Step

theorem Task.le_position (task : Task) (i : Nat) : i ≤ task.position i := by
  unfold Task.position
  split <;> omega

theorem Place.Path.le {p q : Place} (h : Place.Path p q) : p.2 ≤ q.2 := by
  induction h with
  | refl => exact Nat.le_refl _
  | tail _ hstep ih =>
    obtain ⟨-⟩ := hstep
    exact Nat.le_trans ih (Task.le_position _ _)

theorem Trial.step_of_mem_next {r q : Trial} (h : q ∈ r.next) :
    Place.Step r.place q.place := by
  obtain ⟨tasks, starts, s⟩ := r
  cases tasks with
  | nil => exact absurd h List.not_mem_nil
  | cons task rest =>
    obtain ⟨tasks, htasks, rfl⟩ := List.mem_map.mp h
    exact .mk htasks

theorem Trial.exists_mem_next {r : Trial} {p : Place} (h : Place.Step r.place p) :
    ∃ q ∈ r.next, q.place = p := by
  obtain ⟨tasks, starts, s⟩ := r
  generalize hplace : Trial.place ⟨tasks, starts, s⟩ = place at h
  obtain ⟨hmem⟩ := h
  obtain ⟨rfl, rfl⟩ := Prod.mk.inj hplace
  exact ⟨_, List.mem_map_of_mem hmem, rfl⟩

/-! ## The first of the runs -/

/-- Where the runs end that go on with a run and enter only places of `free`,
each at most once, in the order of preference. -/
def Trial.outcomes (free : List Place) (r : Trial) : List Spot :=
  if r.place ∈ free then
    if r.tasks = [] then [r.spot]
    else r.next.flatMap (outcomes (remaining free r.place))
  else []
termination_by free.length
decreasing_by exact length_remaining_lt ‹_›

theorem Trial.next_of_tasks_eq_nil {r : Trial} (h : r.tasks = []) : r.next = [] := by
  rw [next, h]

/-- What is known of a run that waits for its turn. The places of `free` are
those that are not on the way to it. The ones of them that were entered were
left without success, and a step from them leads to a place that was entered
too, or to one of `above`, from where runs go on that are tried before. -/
structure Settled (ends : Positions) (unseen above free : List Place) : Prop where
  subset : unseen ⊆ free
  failed : ∀ p ∈ free, p ∉ unseen → ¬(p.1 = [] ∧ ends.has p.2 = true)
  closed : ∀ p ∈ free, p ∉ unseen → ∀ q, Place.Step p q → q ∈ unseen → q ∈ above

/-- The same of all runs that wait, each with the places that are free for it. -/
def Queued (ends : Positions) (unseen : List Place) :
    List Place → List (Trial × List Place) → Prop
  | _, [] => True
  | above, (r, free) :: below =>
    Settled ends unseen above free ∧ Queued ends unseen (r.place :: above) below

section Turns

variable {ends : Positions} {unseen unseen' above above' free : List Place}

/-- Entering further places without success settles them too, if the runs that
go on from them come before. -/
theorem Settled.enter (h : Settled ends unseen above free) (hsub : unseen' ⊆ unseen)
    (habove : ∀ q ∈ unseen', q ∈ above → q ∈ above')
    (hentered : ∀ p ∈ unseen, p ∉ unseen' →
      ¬(p.1 = [] ∧ ends.has p.2 = true) ∧ ∀ q, Place.Step p q → q ∈ above') :
    Settled ends unseen' above' free where
  subset := fun _ hp => h.subset (hsub hp)
  failed := fun p hp hnot => by
    by_cases hmem : p ∈ unseen
    · exact (hentered p hmem hnot).1
    · exact h.failed p hp hmem
  closed := fun p hp hnot q hstep hq => by
    by_cases hmem : p ∈ unseen
    · exact (hentered p hmem hnot).2 q hstep
    · exact habove q hq (h.closed p hp hmem q hstep (hsub hq))

/-- What is known at the turn of a run holds behind it too, where its place is
not free. -/
theorem Settled.behind (h : Settled ends unseen [] free) (place : Place)
    (above : List Place) :
    Settled ends (remaining unseen place) above (remaining free place) where
  subset := fun p hp => by
    obtain ⟨hunseen, hne⟩ := mem_remaining.mp hp
    exact mem_remaining.mpr ⟨h.subset hunseen, hne⟩
  failed := fun p hp hgone => by
    obtain ⟨hfree, hne⟩ := mem_remaining.mp hp
    exact h.failed p hfree fun hunseen => hgone (mem_remaining.mpr ⟨hunseen, hne⟩)
  closed := fun p hp hgone q hstep hq => by
    obtain ⟨hfree, hne⟩ := mem_remaining.mp hp
    have hnot : p ∉ unseen := fun hunseen => hgone (mem_remaining.mpr ⟨hunseen, hne⟩)
    exact absurd (h.closed p hfree hnot q hstep (mem_remaining.mp hq).1) List.not_mem_nil

theorem Queued.enter {below : List (Trial × List Place)}
    (h : Queued ends unseen above below)
    (hsub : unseen' ⊆ unseen) (habove : ∀ q ∈ unseen', q ∈ above → q ∈ above')
    (hentered : ∀ p ∈ unseen, p ∉ unseen' →
      ¬(p.1 = [] ∧ ends.has p.2 = true) ∧ ∀ q, Place.Step p q → q ∈ above') :
    Queued ends unseen' above' below := by
  induction below generalizing above above' with
  | nil => trivial
  | cons x below ih =>
    refine ⟨h.1.enter hsub habove hentered, ih h.2 (fun q hq hmem => ?_) fun p hp hnot => ?_⟩
    · rcases List.mem_cons.mp hmem with rfl | hmem
      · exact List.mem_cons_self
      · exact List.mem_cons_of_mem _ (habove q hq hmem)
    · obtain ⟨hfail, hsteps⟩ := hentered p hp hnot
      exact ⟨hfail, fun q hstep => List.mem_cons_of_mem _ (hsteps q hstep)⟩

/-- Runs for which the same places are free, before others. -/
theorem queued_append {runs : List Trial} {below : List (Trial × List Place)}
    (hruns : ∀ above, Settled ends unseen above free)
    (hbelow : ∀ above', above ⊆ above' → (∀ r ∈ runs, r.place ∈ above') →
      Queued ends unseen above' below) :
    Queued ends unseen above (runs.map (·, free) ++ below) := by
  induction runs generalizing above with
  | nil => exact hbelow above (List.Subset.refl _) nofun
  | cons r runs ih =>
    refine ⟨hruns above, ih fun above' hsub hmem => hbelow above' ?_ ?_⟩
    · exact fun p hp => hsub (List.mem_cons_of_mem _ hp)
    · rintro q (_ | ⟨_, hq⟩)
      · exact hsub List.mem_cons_self
      · exact hmem q hq

/-- From where a run was left without success, none succeeds. -/
theorem Trial.no_outcome_of_seen (h : Settled ends unseen [] free) {sub : List Place}
    (hsub : sub ⊆ free) {r : Trial} (hr : r.place ∉ unseen) :
    ∀ t ∈ r.outcomes sub, ends.has t.position = false := by
  induction sub, r using Trial.outcomes.induct with
  | case1 sub r hmem hdone =>
    rw [outcomes, if_pos hmem, if_pos hdone]
    intro t ht
    obtain rfl := List.mem_singleton.mp ht
    exact Bool.eq_false_iff.mpr fun hended => h.failed _ (hsub hmem) hr ⟨hdone, hended⟩
  | case2 sub r hmem hnot ih =>
    rw [outcomes, if_pos hmem, if_neg hnot]
    intro t ht
    obtain ⟨q, hq, ht⟩ := List.mem_flatMap.mp ht
    refine ih q (fun p hp => hsub (mem_remaining.mp hp).1) (fun hunseen => ?_) t ht
    exact absurd (h.closed _ (hsub hmem) hr _ (Trial.step_of_mem_next hq) hunseen) List.not_mem_nil
  | case3 sub r hmem =>
    rw [outcomes, if_neg hmem]
    exact nofun

/-- A run that has not succeeded yet goes on. -/
theorem Trial.find?_outcomes_of_mem {r : Trial} (hmem : r.place ∈ free)
    (hnot : ¬(r.tasks = [] ∧ ends.has r.spot.position = true)) :
    (r.outcomes free).find? (ends.has ·.position) =
      (r.next.flatMap (outcomes (remaining free r.place))).find? (ends.has ·.position) := by
  rw [outcomes, if_pos hmem]
  split
  · next hdone =>
    have hspot : ends.has r.spot.position = false :=
      Bool.eq_false_iff.mpr fun hended => hnot ⟨hdone, hended⟩
    simp [next_of_tasks_eq_nil hdone, hspot]
  · rfl

/-- Although no place is entered a second time on any run, the first run that
succeeds is the first of all that enter no place twice. -/
theorem Trial.first_of_queued {runs : List Trial} {stack : List (Trial × List Place)}
    (hruns : stack.map (·.1) = runs) (h : Queued ends unseen [] stack) :
    Trial.first ends unseen runs =
      (stack.flatMap fun x => x.1.outcomes x.2).find? (ends.has ·.position) := by
  induction unseen, runs using Trial.first.induct ends generalizing stack with
  | case1 unseen =>
    obtain rfl := List.map_eq_nil_iff.mp hruns
    simp [first]
  | case2 unseen r later hunseen hended =>
    obtain ⟨⟨r, free⟩, below, rfl, rfl, rfl⟩ := List.map_eq_cons_iff.mp hruns
    have hfree : r.place ∈ free := h.1.subset hunseen
    rw [first, if_pos hunseen, if_pos hended, List.flatMap_cons, outcomes, if_pos hfree,
      if_pos hended.1]
    simp [hended.2]
  | case3 unseen r later hunseen hnot ih =>
    obtain ⟨⟨r, free⟩, below, rfl, rfl, rfl⟩ := List.map_eq_cons_iff.mp hruns
    have hqueued : Queued ends (remaining unseen r.place) []
        (r.next.map (·, remaining free r.place) ++ below) := by
      refine queued_append (h.1.behind r.place) fun above _ hnext => h.2.enter ?_ ?_ ?_
      · exact fun p hp => (mem_remaining.mp hp).1
      · intro q hq hmem
        obtain rfl := List.mem_singleton.mp hmem
        exact absurd rfl (mem_remaining.mp hq).2
      · intro p hp hgone
        obtain rfl : p = r.place := by
          by_contra hne
          exact hgone (mem_remaining.mpr ⟨hp, hne⟩)
        refine ⟨hnot, fun q hstep => ?_⟩
        obtain ⟨q, hq, rfl⟩ := Trial.exists_mem_next hstep
        exact hnext q hq
    have hstack : (r.next.map (·, remaining free r.place) ++ below).map (·.1) =
        r.next ++ below.map (·.1) := by
      simp [Function.comp_def]
    rw [first, if_pos hunseen, if_neg hnot, ih hstack hqueued, List.flatMap_cons,
      List.flatMap_append, List.find?_append, List.find?_append, List.flatMap_map,
      find?_outcomes_of_mem (h.1.subset hunseen) hnot]
  | case4 unseen r later hseen ih =>
    obtain ⟨⟨r, free⟩, below, rfl, rfl, rfl⟩ := List.map_eq_cons_iff.mp hruns
    have hfail : (r.outcomes free).find? (ends.has ·.position) = none :=
      List.find?_eq_none.mpr fun t ht => by
        simp [no_outcome_of_seen h.1 (List.Subset.refl _) hseen t ht]
    have hqueued : Queued ends unseen [] below := by
      refine h.2.enter (List.Subset.refl _) (fun q hq hmem => ?_) fun p hp hgone => absurd hp hgone
      obtain rfl := List.mem_singleton.mp hmem
      exact absurd hq hseen
    rw [first, if_neg hseen, ih rfl hqueued, List.flatMap_cons, List.find?_append, hfail,
      Option.none_or]

end Turns

/-- Trying finds the first of the runs that enter no place twice. -/
theorem Plan.tryOut_eq_find? (e : Plan) (ends : Positions) (s : Spot) :
    tryOut e ends s =
      (Trial.outcomes (e.places (ends.log2 + 1)) ⟨[.go e], [], s⟩).find?
        (ends.has ·.position) := by
  let r : Trial := ⟨[.go e], [], s⟩
  have hqueued : Queued ends (e.places (ends.log2 + 1)) [] [(r, e.places (ends.log2 + 1))] :=
    ⟨⟨List.Subset.refl _, fun p hp hnot => absurd hp hnot, fun p hp hnot => absurd hp hnot⟩,
      trivial⟩
  exact (Trial.first_of_queued rfl hqueued).trans (by rw [List.flatMap_singleton])

/-! ## Positions behind the ends -/

theorem Trial.le_of_mem_outcomes {free : List Place} {r : Trial} {t : Spot}
    (h : t ∈ r.outcomes free) : r.spot.position ≤ t.position := by
  induction free, r using Trial.outcomes.induct with
  | case1 free r hmem hdone =>
    rw [outcomes, if_pos hmem, if_pos hdone] at h
    obtain rfl := List.mem_singleton.mp h
    exact Nat.le_refl _
  | case2 free r hmem hnot ih =>
    rw [outcomes, if_pos hmem, if_neg hnot] at h
    obtain ⟨q, hq, ht⟩ := List.mem_flatMap.mp h
    exact (Place.Path.le (.single (step_of_mem_next hq))).trans (ih q ht)
  | case3 free r hmem =>
    rw [outcomes, if_neg hmem] at h
    exact absurd h List.not_mem_nil

/-- All positions of a set come before one. -/
def Positions.Before (ends : Positions) (count : Nat) : Prop :=
  ∀ i, ends.has i = true → i < count

theorem find?_flatMap_congr {l : List Trial} {f g : Trial → List Spot} {p : Spot → Bool}
    (h : ∀ r ∈ l, (f r).find? p = (g r).find? p) :
    (l.flatMap f).find? p = (l.flatMap g).find? p := by
  induction l with
  | nil => rfl
  | cons r rest ih =>
    rw [List.flatMap_cons, List.flatMap_cons, List.find?_append, List.find?_append,
      h r List.mem_cons_self, ih fun q hq => h q (List.mem_cons_of_mem _ hq)]

theorem Trial.find?_outcomes_of_le {ends : Positions} {count : Nat}
    (hends : ends.Before count)
    {r : Trial} (hle : count ≤ r.spot.position) (free : List Place) :
    (r.outcomes free).find? (ends.has ·.position) = none :=
  List.find?_eq_none.mpr fun _ ht hended =>
    absurd (hends _ hended) (Nat.not_lt.mpr (hle.trans (le_of_mem_outcomes ht)))

/-- Whether places behind all ends are free makes no difference. -/
theorem Trial.find?_outcomes_congr {ends : Positions} {count : Nat}
    (hends : ends.Before count)
    {free free' : List Place} (hfree : ∀ p : Place, p.2 < count → (p ∈ free ↔ p ∈ free'))
    (r : Trial) :
    (r.outcomes free).find? (ends.has ·.position) =
      (r.outcomes free').find? (ends.has ·.position) := by
  rcases Nat.lt_or_ge r.spot.position count with hlt | hle
  · induction free, r using Trial.outcomes.induct generalizing free' with
    | case1 free r hmem hdone =>
      rw [outcomes, outcomes, if_pos hmem, if_pos hdone, if_pos ((hfree _ hlt).mp hmem),
        if_pos hdone]
    | case2 free r hmem hnot ih =>
      rw [outcomes, outcomes, if_pos hmem, if_neg hnot, if_pos ((hfree _ hlt).mp hmem),
        if_neg hnot]
      refine find?_flatMap_congr fun q _ => ?_
      rcases Nat.lt_or_ge q.spot.position count with hnext | hnext
      · refine ih q (fun p hp => ?_) hnext
        rw [mem_remaining, mem_remaining, hfree p hp]
      · rw [find?_outcomes_of_le hends hnext, find?_outcomes_of_le hends hnext]
    | case3 free r hmem =>
      rw [outcomes, outcomes, if_neg hmem, if_neg fun hmem' => hmem ((hfree _ hlt).mpr hmem')]
  · rw [find?_outcomes_of_le hends hle, find?_outcomes_of_le hends hle]

end UrlRouting.Regex
