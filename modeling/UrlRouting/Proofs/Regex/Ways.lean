import UrlRouting.Proofs.Regex.Reaches
import UrlRouting.Regex.Search

/-!
# Ways and their marks

A way through an expression takes the text from one position to another, and
each group that it goes through leaves a mark with the positions between which
it went. `Plan.Way` says so without a preference: one way for each choice of
alternatives and rounds.

Main statements: `Plan.Way.reaches`, that a way takes the text as the expression
allows, and `Plan.Way.setsMarks`, that its marks are those of groups of the
expression.
-/

namespace UrlRouting.Regex

/-! ## Groups -/

/-- A group of an expression: its number, its name if it has one, and what it groups. -/
structure CaptureGroup (ρ τ : Type) where
  number : Nat
  name : Option String
  inner : Expr ρ τ

section Groups

variable {ρ τ ρ' τ' : Type}

/-- The groups of an expression from left to right, a group before those in it. -/
def Expr.groups : Expr ρ τ → List (CaptureGroup ρ τ)
  | .empty => []
  | .take _ => []
  | .test _ => []
  | .group number name inner => ⟨number, name, inner⟩ :: inner.groups
  | .seq a b => a.groups ++ b.groups
  | .alt a b => a.groups ++ b.groups
  | .loop _ _ _ body => body.groups

/-- The group with its leaves replaced. -/
def CaptureGroup.map (f : ρ → ρ') (g : τ → τ') (group : CaptureGroup ρ τ) :
    CaptureGroup ρ' τ' :=
  ⟨group.number, group.name, group.inner.map f g⟩

theorem Expr.groups_map (f : ρ → ρ') (g : τ → τ') (e : Expr ρ τ) :
    (e.map f g).groups = e.groups.map (CaptureGroup.map f g) := by
  induction e with
  | empty => rfl
  | take leaf => rfl
  | test leaf => rfl
  | group number name inner ih => exact congrArg (_ :: ·) ih
  | seq a b iha ihb =>
    show (a.map f g).groups ++ (b.map f g).groups = _
    rw [iha, ihb, ← List.map_append]
    rfl
  | alt a b iha ihb =>
    show (a.map f g).groups ++ (b.map f g).groups = _
    rw [iha, ihb, ← List.map_append]
    rfl
  | loop min max greedy body ih => exact ih

end Groups

/-! ## Ways -/

/-- A way through an expression from one spot to another, with the marks of the
groups that it goes through on top of those set before. -/
def Plan.Way : Plan → Spot → Spot → Prop
  | .empty, s, t => t = s
  | .take leaf, s, t => leaf.has s.position = true ∧ t = ⟨s.position + 1, s.marks⟩
  | .test leaf, s, t => leaf.has s.position = true ∧ t = s
  | .group number _ inner, s, t =>
    ∃ u, Plan.Way inner s u ∧ t = ⟨u.position, ⟨number, s.position, u.position⟩ :: u.marks⟩
  | .seq a b, s, t => ∃ u, Plan.Way a s u ∧ Plan.Way b u t
  | .alt a b, s, t => Plan.Way a s t ∨ Plan.Way b s t
  | .loop min none _ body, s, t => ∃ n, min ≤ n ∧ Rounds (Plan.Way body) n s t
  | .loop min (some max) _ body, s, t =>
    ∃ n, min ≤ n ∧ n ≤ min + (max - min) ∧ Rounds (Plan.Way body) n s t

/-- Without its marks, a way is what an expression can take. -/
theorem Plan.Way.reaches {e : Plan} {s t : Spot} (h : e.Way s t) :
    e.Reaches s.position t.position := by
  induction e generalizing s t with
  | empty => exact congrArg Spot.position h
  | take leaf => exact ⟨h.1, congrArg Spot.position h.2⟩
  | test leaf => exact ⟨h.1, congrArg Spot.position h.2⟩
  | group number name inner ih =>
    obtain ⟨u, hu, rfl⟩ := h
    exact (ih hu :)
  | seq a b iha ihb =>
    obtain ⟨u, ha, hb⟩ := h
    exact ⟨u.position, iha ha, ihb hb⟩
  | alt a b iha ihb => exact h.imp iha ihb
  | loop min max greedy body ih =>
    have hbody : ∀ s t, Plan.Way body s t → Plan.Reaches body s.position t.position :=
      fun _ _ => ih
    cases max with
    | none =>
      obtain ⟨n, hmin, hrounds⟩ := h
      exact ⟨n, hmin, hrounds.map hbody⟩
    | some max =>
      obtain ⟨n, hmin, hmax, hrounds⟩ := h
      exact ⟨n, hmin, hmax, hrounds.map hbody⟩

/-! ## Marks -/

/-- A mark of a group between two positions: what the group groups takes the
text from where the mark starts to where it stops. -/
structure Plan.MarkedBetween (e : Plan) (i j : Nat) (mark : Mark) : Prop where
  start_le : i ≤ mark.start
  stop_le : mark.stop ≤ j
  taken : ∃ group ∈ e.groups, group.number = mark.group ∧
    Plan.Reaches group.inner mark.start mark.stop

theorem Plan.MarkedBetween.mono {e e' : Plan} {i i' j j' : Nat} {mark : Mark}
    (h : e.MarkedBetween i j mark) (hgroups : e.groups ⊆ e'.groups) (hi : i' ≤ i)
    (hj : j ≤ j') :
    e'.MarkedBetween i' j' mark where
  start_le := Nat.le_trans hi h.start_le
  stop_le := Nat.le_trans h.stop_le hj
  taken := by
    obtain ⟨group, hmem, htaken⟩ := h.taken
    exact ⟨group, hgroups hmem, htaken⟩

/-- Between two spots only marks of groups of an expression were set. -/
def Plan.SetsMarks (e : Plan) (s t : Spot) : Prop :=
  ∃ added, t.marks = added ++ s.marks ∧
    ∀ mark ∈ added, e.MarkedBetween s.position t.position mark

namespace Plan.SetsMarks

variable {e e' : Plan} {s t u : Spot}

theorem of_eq (h : t.marks = s.marks) : e.SetsMarks s t :=
  ⟨[], h, nofun⟩

theorem mono (h : e.SetsMarks s t) (hgroups : e.groups ⊆ e'.groups) :
    e'.SetsMarks s t := by
  obtain ⟨added, hadded, hmarks⟩ := h
  exact ⟨added, hadded, fun mark hmem =>
    (hmarks mark hmem).mono hgroups (Nat.le_refl _) (Nat.le_refl _)⟩

theorem trans (h : e.SetsMarks s u) (h' : e.SetsMarks u t) (hs : s.position ≤ u.position)
    (ht : u.position ≤ t.position) : e.SetsMarks s t := by
  obtain ⟨added, hadded, hfirst⟩ := h
  obtain ⟨added', hadded', hsecond⟩ := h'
  refine ⟨added' ++ added, by rw [hadded', hadded, List.append_assoc], fun mark hmem => ?_⟩
  rcases List.mem_append.mp hmem with hmem | hmem
  · exact (hsecond mark hmem).mono (List.Subset.refl _) hs (Nat.le_refl _)
  · exact (hfirst mark hmem).mono (List.Subset.refl _) (Nat.le_refl _) ht

theorem rounds (h : ∀ s t, e.Way s t → e.SetsMarks s t) {n : Nat}
    (hrounds : Rounds e.Way n s t) :
    e.SetsMarks s t := by
  induction n generalizing s with
  | zero => exact of_eq (congrArg Spot.marks hrounds)
  | succ n ih =>
    obtain ⟨u, hfirst, hrest⟩ := hrounds
    have hle : u.position ≤ t.position :=
      (hrest.map (f := Spot.position) fun _ _ => Plan.Way.reaches).le fun _ _ => Plan.Reaches.le
    exact (h s u hfirst).trans (ih hrest) hfirst.reaches.le hle

end Plan.SetsMarks

/-- The marks of a way are marks of groups of the expression, on top of those
set before. -/
theorem Plan.Way.setsMarks {e : Plan} {s t : Spot} (h : e.Way s t) : e.SetsMarks s t := by
  induction e generalizing s t with
  | empty => exact .of_eq (congrArg Spot.marks h)
  | take leaf =>
    obtain ⟨-, rfl⟩ := h
    exact .of_eq rfl
  | test leaf => exact .of_eq (congrArg Spot.marks h.2)
  | group number name inner ih =>
    obtain ⟨u, hu, rfl⟩ := h
    obtain ⟨added, hadded, hmarks⟩ := ih hu
    refine ⟨⟨number, s.position, u.position⟩ :: added, congrArg (_ :: ·) hadded, ?_⟩
    rw [List.forall_mem_cons]
    refine ⟨⟨Nat.le_refl _, Nat.le_refl _, _, List.mem_cons_self, rfl, hu.reaches⟩,
      fun mark hmem => ?_⟩
    exact (hmarks mark hmem).mono (List.subset_cons_self ..) (Nat.le_refl _) (Nat.le_refl _)
  | seq a b iha ihb =>
    obtain ⟨u, ha, hb⟩ := h
    exact ((iha ha).mono (List.subset_append_left ..)).trans
      ((ihb hb).mono (List.subset_append_right ..)) ha.reaches.le hb.reaches.le
  | alt a b iha ihb =>
    rcases h with h | h
    · exact (iha h).mono (List.subset_append_left ..)
    · exact (ihb h).mono (List.subset_append_right ..)
  | loop min max greedy body ih =>
    have hbody : ∀ s t, Plan.Way body s t → Plan.SetsMarks body s t := fun _ _ => ih
    cases max with
    | none =>
      obtain ⟨n, -, hrounds⟩ := h
      exact (Plan.SetsMarks.rounds hbody hrounds).mono (List.Subset.refl body.groups)
    | some max =>
      obtain ⟨n, -, -, hrounds⟩ := h
      exact (Plan.SetsMarks.rounds hbody hrounds).mono (List.Subset.refl body.groups)

end UrlRouting.Regex
