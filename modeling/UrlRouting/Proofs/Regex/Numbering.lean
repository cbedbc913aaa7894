import UrlRouting.Proofs.Regex.Groups
import UrlRouting.Proofs.Regex.Ways

/-!
# How groups are numbered

A group takes the number that is next where it begins, and its name if no group
before it has that name. From left to right, then, the numbers of the groups of
an expression increase and their names differ. What stands behind a group cannot
change that: a repetition may drop the groups that it repeats, but not put
others in their place.

Main statement: `numbered_of_ofText?`.
-/

namespace UrlRouting.Regex

/-! ## Expressions -/

section Expressions

variable {ρ τ : Type}

theorem Expr.All.of_mem_groups {P : Nat → Option String → Prop} {T : τ → Prop}
    {e : Expr ρ τ} (he : e.All P T) {group : CaptureGroup ρ τ} (h : group ∈ e.groups) :
    P group.number group.name := by
  induction e with
  | empty => cases h
  | take leaf => cases h
  | test leaf => cases h
  | group number name inner ih =>
    rcases List.mem_cons.mp h with rfl | h
    · exact he.1
    · exact ih he.2 h
  | seq a b iha ihb => exact (List.mem_append.mp h).elim (iha he.1) (ihb he.2)
  | alt a b iha ihb => exact (List.mem_append.mp h).elim (iha he.1) (ihb he.2)
  | loop min max greedy body ih => exact ih he h

/-- The named groups are those of all groups that have a name. -/
theorem Expr.namedGroups_eq (e : Expr ρ τ) :
    e.namedGroups = e.groups.filterMap fun group => group.name.map (group.number, ·) := by
  induction e with
  | empty => rfl
  | take leaf => rfl
  | test leaf => rfl
  | group number name inner ih =>
    show (name.map (number, ·)).toList ++ inner.namedGroups = _
    rw [ih, Expr.groups]
    cases name with
    | none => rfl
    | some name => rfl
  | seq a b iha ihb =>
    show a.namedGroups ++ b.namedGroups = _
    rw [iha, ihb, ← List.filterMap_append]
    rfl
  | alt a b iha ihb =>
    show a.namedGroups ++ b.namedGroups = _
    rw [iha, ihb, ← List.filterMap_append]
    rfl
  | loop min max greedy body ih => exact ih

/-- The numbers and names of the groups of an expression. -/
def Expr.labels (e : Expr ρ τ) : List (Nat × Option String) :=
  e.groups.map fun group => (group.number, group.name)

theorem Expr.labels_seq (a b : Expr ρ τ) : (Expr.seq a b).labels = a.labels ++ b.labels :=
  List.map_append

theorem Expr.labels_alt (a b : Expr ρ τ) : (Expr.alt a b).labels = a.labels ++ b.labels :=
  List.map_append

theorem Expr.labels_concat (es : List (Expr ρ τ)) :
    (Expr.concat es).labels = es.flatMap Expr.labels := by
  have hfold : ∀ (rest : List (Expr ρ τ)) (e : Expr ρ τ),
      (rest.foldl Expr.seq e).labels = e.labels ++ rest.flatMap Expr.labels := by
    intro rest
    induction rest with
    | nil => simp
    | cons next rest ih =>
      intro e
      rw [List.foldl_cons, ih, Expr.labels_seq, List.flatMap_cons, List.append_assoc]
  cases es with
  | nil => rfl
  | cons e rest => rw [List.flatMap_cons]; exact hfold rest e

theorem Expr.labels_choice (first : Expr ρ τ) (rest : List (Expr ρ τ)) :
    (Expr.choice first rest).labels = first.labels ++ rest.flatMap Expr.labels := by
  induction rest generalizing first with
  | nil => exact (List.append_nil _).symm
  | cons e rest ih => rw [Expr.choice, Expr.labels_alt, ih, List.flatMap_cons]

/-- A repetition has the groups of what it repeats, or none. -/
theorem Expr.labels_repeated (min : Nat) (max : Option Nat) (greedy : Bool)
    (body : Expr ρ τ) :
    (Expr.repeated min max greedy body).labels.Sublist body.labels := by
  unfold Expr.repeated
  generalize (if body.takesNothing = true then _ else _ : Nat × Option Nat) = bounds
  obtain ⟨least, most⟩ := bounds
  dsimp only
  split
  · exact List.nil_sublist _
  · split
    · exact List.Sublist.refl _
    · exact List.Sublist.refl body.labels

end Expressions

/-! ## Readings -/

/-- The numbers and names of the groups of pieces, with the last piece first. -/
def labelsOf (pieces : List Piece) : List (Nat × Option String) :=
  pieces.reverse.flatMap fun piece => piece.expr.labels

theorem labelsOf_cons (piece : Piece) (pieces : List Piece) :
    labelsOf (piece :: pieces) = labelsOf pieces ++ piece.expr.labels := by
  rw [labelsOf, List.reverse_cons, List.flatMap_append, List.flatMap_singleton]
  rfl

/-- The numbers and names of an open group and of those in it. -/
def Level.labels (l : Level) : List (Nat × Option String) :=
  l.capture.toList ++ labelsOf l.branches ++ labelsOf l.pieces

theorem Level.labels_branch (l : Level) : l.branch.expr.labels = labelsOf l.pieces := by
  rw [Level.expr_branch, Expr.labels_concat, List.flatMap_map]
  rfl

theorem Level.labels_body (l : Level) :
    l.body.expr.labels = labelsOf l.branches ++ labelsOf l.pieces := by
  have hparts : (l.branch :: l.branches).reverse.flatMap (fun piece => piece.expr.labels) =
      labelsOf l.branches ++ labelsOf l.pieces := by
    rw [← l.labels_branch]
    exact labelsOf_cons l.branch l.branches
  rw [← hparts]
  unfold Level.body
  dsimp only
  split
  · next heq => exact absurd heq (by simp)
  · next piece heq => rw [heq, List.flatMap_singleton]
  · next first rest _ heq => rw [heq, List.flatMap_cons, Expr.labels_choice, List.flatMap_map]

theorem Level.labels_close (l : Level) : l.close.expr.labels = l.labels := by
  unfold Level.close Level.labels
  cases l.capture with
  | none => exact l.labels_body
  | some capture => exact congrArg (_ :: ·) l.labels_body

theorem Level.labels_add (l : Level) (piece : Piece) :
    (l.add piece).labels = l.labels ++ piece.expr.labels := by
  show l.capture.toList ++ labelsOf l.branches ++ labelsOf (piece :: l.pieces) = _
  rw [labelsOf_cons, ← List.append_assoc]
  rfl

namespace Reading

/-- The numbers and names of all groups that began, from the outermost group on. -/
def labels (r : Reading) : List (Nat × Option String) :=
  (r.level :: r.outer).reverse.flatMap Level.labels

theorem labels_eq (r : Reading) :
    r.labels = r.outer.reverse.flatMap Level.labels ++ r.level.labels := by
  rw [labels, List.reverse_cons, List.flatMap_append, List.flatMap_singleton]

theorem labels_add (r : Reading) (piece : Piece) :
    (r.add piece).labels = r.labels ++ piece.expr.labels := by
  rw [labels_eq, labels_eq, List.append_assoc, ← Level.labels_add]
  rfl

/-- A group that begins stands behind all that began before. -/
theorem labels_enter (r : Reading) (capture : Option (Nat × Option String))
    (flags : Flags) :
    (r.enter capture flags).labels = r.labels ++ capture.toList := by
  have hopened : (Level.mk capture r.flags [] []).labels = capture.toList := by
    simp [Level.labels, labelsOf]
  rw [labels_eq, ← hopened]
  rfl

/-- A token begins a group under the next number and a name that is free, or it
begins none and at most drops some. -/
theorem labels_of_apply {r r' : Reading} {token : Token} (hwritten : token.Written)
    (h : r.apply token = some r') :
    (∃ name : Option String, (∀ own, name = some own → own ∉ r.names) ∧
      r'.labels = r.labels ++ [(r.captures + 1, name)] ∧ r'.captures = r.captures + 1 ∧
      r'.names = name.toList ++ r.names) ∨
    r'.labels.Sublist r.labels ∧ r'.captures = r.captures ∧ r'.names = r.names := by
  have hkeep : ∀ labels, labels = r.labels → labels.Sublist r.labels :=
    fun _ heq => heq ▸ List.Sublist.refl _
  cases token with
  | leaf e depth =>
    cases h
    have hnone : e.labels = [] := by
      rcases hwritten with ⟨_, rfl⟩ | ⟨_, rfl⟩ <;> rfl
    refine .inr ⟨hkeep _ ?_, rfl, rfl⟩
    rw [labels_add, hnone, List.append_nil]
  | capture name =>
    rw [Reading.apply_capture] at h
    split at h <;> cases h
    next hfree =>
      refine .inl ⟨name, ?_, labels_enter r (some (r.captures + 1, name)) r.flags, rfl, rfl⟩
      rintro own rfl hmem
      exact hfree (List.contains_iff_mem.mpr hmem)
  | plain flags =>
    cases h
    refine .inr ⟨hkeep _ ?_, rfl, rfl⟩
    rw [labels_enter, Option.toList_none, List.append_nil]
  | flags flags =>
    cases h
    refine .inr ⟨hkeep _ ?_, rfl, rfl⟩
    show (r.add _).labels = _
    rw [labels_add]
    exact List.append_nil _
  | close =>
    obtain ⟨parent, outer, houter, rfl⟩ := Reading.exists_of_apply_close h
    refine .inr ⟨hkeep _ ?_, rfl, rfl⟩
    rw [labels_eq, labels_eq, Level.labels_add, Level.labels_close, houter, List.reverse_cons,
      List.flatMap_append, List.flatMap_singleton, List.append_assoc]
  | bar =>
    cases h
    refine .inr ⟨hkeep _ ?_, rfl, rfl⟩
    rw [labels_eq, labels_eq]
    refine congrArg (_ ++ ·) ?_
    show r.level.capture.toList ++ labelsOf (r.level.branch :: r.level.branches) ++ [] = _
    rw [labelsOf_cons, Level.labels_branch, List.append_nil, ← List.append_assoc]
    rfl
  | again min max lazy =>
    obtain ⟨piece, pieces, hpieces, -, rfl⟩ := Reading.exists_of_apply_again h
    refine .inr ⟨?_, rfl, rfl⟩
    rw [labels_eq, labels_eq, Level.labels, Level.labels, hpieces, labelsOf_cons, labelsOf_cons]
    have hloop := Expr.labels_repeated min max (lazy == r.flags.swapGreed) piece.expr
    exact ((hloop.append_left _).append_left _).append_left _

/-- The groups that began are numbered in order, and no two of them have one name. -/
structure Numbered (r : Reading) : Prop where
  increasing : (r.labels.map Prod.fst).Pairwise (· < ·)
  begun : ∀ label ∈ r.labels, label.1 ≤ r.captures
  distinct : (r.labels.filterMap Prod.snd).Nodup
  taken : ∀ label ∈ r.labels, ∀ name, label.2 = some name → name ∈ r.names

theorem Numbered.start : Reading.start.Numbered :=
  ⟨List.Pairwise.nil, nofun, List.nodup_nil, nofun⟩

theorem Numbered.apply {r r' : Reading} (hr : r.Numbered) {token : Token}
    (hwritten : token.Written) (h : r.apply token = some r') : r'.Numbered := by
  rcases labels_of_apply hwritten h with
    ⟨name, hfree, hlabels, hcaptures, hnames⟩ | ⟨hlabels, hcaptures, hnames⟩
  · have hold : ∀ label ∈ r.labels, ∀ own, label.2 = some own → own ∈ r'.names :=
      fun label hmem own hown => hnames ▸ List.mem_append_right _ (hr.taken label hmem own hown)
    refine ⟨?_, ?_, ?_, ?_⟩
    · rw [hlabels, List.map_append, List.pairwise_append]
      refine ⟨hr.increasing, List.pairwise_singleton _ _, fun number hnumber next hnext => ?_⟩
      obtain ⟨label, hmem, rfl⟩ := List.mem_map.mp hnumber
      rw [List.mem_singleton.mp hnext]
      exact Nat.lt_succ_of_le (hr.begun label hmem)
    · intro label hmem
      rw [hlabels] at hmem
      rcases List.mem_append.mp hmem with hmem | hmem
      · exact hcaptures ▸ Nat.le_succ_of_le (hr.begun label hmem)
      · rw [List.mem_singleton.mp hmem, hcaptures]
    · rw [hlabels, List.filterMap_append, List.nodup_append]
      refine ⟨hr.distinct, ?_, ?_⟩
      · cases name <;> simp
      · rintro own hown own' hown' rfl
        obtain ⟨label, hmem, hname⟩ := List.mem_filterMap.mp hown
        obtain ⟨_, hlast, hname'⟩ := List.mem_filterMap.mp hown'
        rw [List.mem_singleton.mp hlast] at hname'
        exact hfree own hname' (hr.taken label hmem own hname)
    · intro label hmem own hown
      rw [hlabels] at hmem
      rcases List.mem_append.mp hmem with hmem | hmem
      · exact hold label hmem own hown
      · rw [List.mem_singleton.mp hmem] at hown
        rw [hnames, show name = some own from hown]
        exact List.mem_cons_self
  · refine ⟨hr.increasing.sublist (hlabels.map _), fun label hmem => ?_,
      hr.distinct.sublist (hlabels.filterMap _), fun label hmem => ?_⟩
    · rw [hcaptures]
      exact hr.begun label (hlabels.subset hmem)
    · rw [hnames]
      exact hr.taken label (hlabels.subset hmem)

/-- The groups of the whole expression are among those that began. -/
theorem labels_of_finish [SizeLimit] {r : Reading} {e : Pattern} (h : r.finish = some e) :
    e.labels.Sublist r.labels := by
  obtain ⟨-, -, -, rfl⟩ := Reading.finish_eq_some_iff.mp h
  rw [labels_eq, Level.labels_body, Level.labels, List.append_assoc]
  exact (List.sublist_append_right _ _).trans (List.sublist_append_right _ _)

end Reading

/-- The groups of an expression that a text writes: their numbers increase from
left to right, and no two of them have one name. -/
theorem numbered_of_ofText? [SizeLimit] {text : List Char} {e : Pattern}
    (h : Pattern.ofText? text = some e) :
    (e.groups.map CaptureGroup.number).Pairwise (· < ·) ∧
      (e.groups.filterMap CaptureGroup.name).Nodup := by
  obtain ⟨whole, hread, hfinish⟩ := Option.bind_eq_some_iff.mp h
  have hwhole : whole.Numbered :=
    readTokens_induction (fun htoken happly hr => hr.apply (written_of_readToken htoken) happly)
      .start hread
  have hlabels := Reading.labels_of_finish hfinish
  have hnumbers : e.labels.map Prod.fst = e.groups.map CaptureGroup.number := List.map_map
  have hnames : e.labels.filterMap Prod.snd = e.groups.filterMap CaptureGroup.name :=
    List.filterMap_map
  rw [← hnumbers, ← hnames]
  exact ⟨hwhole.increasing.sublist (hlabels.map _), hwhole.distinct.sublist (hlabels.filterMap _)⟩

end UrlRouting.Regex
