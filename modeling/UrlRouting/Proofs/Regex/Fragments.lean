import UrlRouting.Proofs.Regex.Groups

/-!
# Texts that a group holds as a whole

A text that sets no flags, gives no names and tests no positions is read inside
a group as it is read on its own, and the group that is closed behind it is the
one that was opened before it. Only the numbers of its own groups are other
ones: they go on from the groups that began before. So a bar of the text reaches
no farther than the group.

Main statement: `exists_heldAs`.
-/

namespace UrlRouting.Regex

/-! ## The numbers of groups -/

section Expressions

variable {ρ τ : Type}

namespace Expr

theorem shift_zero (e : Expr ρ τ) : e.shift 0 = e := by
  induction e with
  | empty => rfl
  | take leaf => rfl
  | test leaf => rfl
  | group number name inner ih => rw [shift, ih, Nat.zero_add]
  | seq a b iha ihb => rw [shift, iha, ihb]
  | alt a b iha ihb => rw [shift, iha, ihb]
  | loop min max greedy body ih => rw [shift, ih]

theorem takesNothing_shift (offset : Nat) (e : Expr ρ τ) :
    (e.shift offset).takesNothing = e.takesNothing := by
  induction e with
  | empty => rfl
  | take leaf => rfl
  | test leaf => rfl
  | group number name inner ih => exact ih
  | seq a b iha ihb => rw [shift, takesNothing, takesNothing, iha, ihb]
  | alt a b iha ihb => rw [shift, takesNothing, takesNothing, iha, ihb]
  | loop min max greedy body ih => rw [shift, takesNothing, takesNothing, ih]

theorem shift_concat (offset : Nat) (es : List (Expr ρ τ)) :
    (concat es).shift offset = concat (es.map (shift offset)) := by
  have hfold : ∀ (rest : List (Expr ρ τ)) (e : Expr ρ τ),
      (rest.foldl seq e).shift offset = (rest.map (shift offset)).foldl seq (e.shift offset) := by
    intro rest
    induction rest with
    | nil => exact fun _ => rfl
    | cons next rest ih => exact fun e => ih (.seq e next)
  cases es with
  | nil => rfl
  | cons e rest => exact hfold rest e

theorem shift_choice (offset : Nat) (first : Expr ρ τ) (rest : List (Expr ρ τ)) :
    (choice first rest).shift offset = choice (first.shift offset)
    (rest.map (shift offset)) := by
  induction rest generalizing first with
  | nil => rfl
  | cons e rest ih => rw [choice, shift, ih, List.map_cons, choice]

theorem shift_repeated (offset min : Nat) (max : Option Nat) (greedy : Bool)
    (body : Expr ρ τ) :
    (repeated min max greedy body).shift offset = repeated min max greedy (body.shift offset) := by
  unfold repeated
  rw [takesNothing_shift]
  generalize (if body.takesNothing = true then _ else _ : Nat × Option Nat) = bounds
  obtain ⟨least, most⟩ := bounds
  dsimp only
  split
  · rfl
  · split <;> rfl

theorem All.shift {P : Nat → Option String → Prop} {T : τ → Prop} {offset : Nat}
    {e : Expr ρ τ}
    (h : e.All (fun number name => P (offset + number) name) T) :
    (e.shift offset).All P T := by
  induction e with
  | empty => trivial
  | take leaf => trivial
  | test leaf => exact h
  | group number name inner ih => exact ⟨h.1, ih h.2⟩
  | seq a b iha ihb => exact ⟨iha h.1, ihb h.2⟩
  | alt a b iha ihb => exact ⟨iha h.1, ihb h.2⟩
  | loop min max greedy body ih => exact ih h

end Expr

end Expressions

/-! ## Levels with other numbers -/

def Piece.shift (offset : Nat) (p : Piece) : Piece :=
  { p with expr := p.expr.shift offset }

theorem deepest_map_shift (offset : Nat) (pieces : List Piece) :
    deepest (pieces.map (Piece.shift offset)) = deepest pieces := by
  unfold deepest
  rw [List.map_map]
  rfl

/-- What a level holds, in the place of what another one holds. -/
def Level.into (offset : Nat) (base l : Level) : Level where
  capture := base.capture
  outerFlags := base.outerFlags
  branches := l.branches.map (Piece.shift offset)
  pieces := l.pieces.map (Piece.shift offset)

def Level.shift (offset : Nat) (l : Level) : Level :=
  Level.into offset { l with capture := l.capture.map fun own => (offset + own.1, own.2) } l

section Levels

variable (offset : Nat) (base l : Level)

theorem Level.branch_into :
    (Level.into offset base l).branch = l.branch.shift offset := by
  unfold Level.branch Level.into
  cases l.pieces with
  | nil => rfl
  | cons first rest =>
    cases rest with
    | nil => rfl
    | cons second rest =>
      have hexprs : (((first :: second :: rest).map (Piece.shift offset)).reverse.map (·.expr)) =
          ((first :: second :: rest).reverse.map (·.expr)).map (Expr.shift offset) := by
        rw [← List.map_reverse, List.map_map, List.map_map]
        rfl
      have hdepth := deepest_map_shift offset (first :: second :: rest)
      show Piece.mk (Expr.concat (((first :: second :: rest).map (Piece.shift offset)).reverse.map
        (·.expr))) (1 + deepest ((first :: second :: rest).map (Piece.shift offset))) true = _
      rw [hexprs, hdepth, ← Expr.shift_concat]
      rfl

theorem Level.body_into : (Level.into offset base l).body = l.body.shift offset := by
  have hparts : ((Level.into offset base l).branch :: (Level.into offset base l).branches).reverse =
      ((l.branch :: l.branches).reverse).map (Piece.shift offset) := by
    rw [Level.branch_into, List.map_reverse]
    rfl
  unfold Level.body
  dsimp only
  rw [hparts]
  cases (l.branch :: l.branches).reverse with
  | nil => exact Level.branch_into offset base l
  | cons first rest =>
    cases rest with
    | nil => rfl
    | cons second rest =>
      have hdepth := deepest_map_shift offset (second :: rest)
      have hexprs : ((second :: rest).map (Piece.shift offset)).map (·.expr) =
          ((second :: rest).map (·.expr)).map (Expr.shift offset) := by
        rw [List.map_map, List.map_map]
        rfl
      show Piece.mk (Expr.choice (first.expr.shift offset)
        (((second :: rest).map (Piece.shift offset)).map (·.expr)))
        (1 + max first.depth (deepest ((second :: rest).map (Piece.shift offset)))) true = _
      rw [hexprs, hdepth, ← Expr.shift_choice]
      rfl

theorem Level.close_shift : (l.shift offset).close = l.close.shift offset := by
  have hbody : (l.shift offset).body = l.body.shift offset := Level.body_into ..
  obtain ⟨capture, outerFlags, branches, pieces⟩ := l
  unfold Level.close
  rw [hbody]
  rcases capture with - | ⟨number, name⟩ <;> rfl

end Levels

/-! ## A reading inside a group -/

/-- The levels of a reading that began when the group `base` had just been opened. -/
def settle (offset : Nat) (base : Level) : Level → List Level → Level × List Level
  | l, [] => (Level.into offset base l, [])
  | l, parent :: rest =>
    (l.shift offset, (settle offset base parent rest).1 :: (settle offset base parent rest).2)

theorem settle_add (offset : Nat) (base : Level) (piece : Piece) (l : Level)
    (outer : List Level) :
    settle offset base (l.add piece) outer =
      ((settle offset base l outer).1.add (piece.shift offset),
        (settle offset base l outer).2) := by
  cases outer <;> rfl

/-- The reading that goes on from `base` as `r` went on from the start. -/
def Reading.within (base r : Reading) : Reading where
  flags := r.flags
  captures := base.captures + r.captures
  names := r.names ++ base.names
  level := (settle base.captures base.level r.level r.outer).1
  outer := (settle base.captures base.level r.level r.outer).2 ++ base.outer

theorem Reading.within_add (base r : Reading) (piece : Piece) :
    base.within (r.add piece) = (base.within r).add (piece.shift base.captures) := by
  simp only [Reading.within, Reading.add, settle_add]

/-- A group that has just been opened has nothing before the first token. -/
theorem Reading.within_start {base : Reading} (hflags : base.flags = {})
    (hbranches : base.level.branches = []) (hpieces : base.level.pieces = []) :
    base.within Reading.start = base := by
  obtain ⟨flags, captures, names, ⟨capture, outerFlags, branches, pieces⟩, outer⟩ := base
  subst hflags hbranches hpieces
  rfl

/-! ## Contained texts -/

/-- A token that means the same in every group: it sets no flags, gives no name
and tests no position. -/
def Token.isContained : Token → Bool
  | .leaf (.take _) _ => true
  | .leaf _ _ => false
  | .capture name => name.isNone
  | .plain own => own = {}
  | .flags _ => false
  | .close => true
  | .bar => true
  | .again _ _ _ => true

/-- A text without inline flags, names and assertions. -/
inductive Contained : List Char → Prop
  | nil : Contained []
  | token {cs rest : List Char} {token : Token} (hread : readToken {} cs = some (token, rest))
      (htoken : token.isContained = true) (hrest : Contained rest) : Contained cs

/-- The groups of an expression, numbered from one, have no names, and there are
no tests. -/
def OwnGroups (count : Nat) (e : Pattern) : Prop :=
  e.All (fun number name => name = none ∧ 0 < number ∧ number ≤ count) (fun _ => False)

/-- A reading of which nothing shows outside. -/
structure Reading.Clear (r : Reading) : Prop where
  flags : r.flags = {}
  outerFlags : ∀ l ∈ r.level :: r.outer, l.outerFlags = {}
  names : r.names = []
  groups : r.All (fun number name => name = none ∧ 0 < number ∧ number ≤ r.captures) fun _ => False

theorem Reading.Clear.start : Reading.start.Clear where
  flags := rfl
  outerFlags := List.forall_mem_cons.mpr ⟨rfl, nofun⟩
  names := rfl
  groups := .start

theorem captures_le_of_apply {r r' : Reading} {token : Token}
    (h : r.apply token = some r') :
    r.captures ≤ r'.captures := by
  cases token with
  | leaf e depth => cases h; exact Nat.le_refl _
  | capture name =>
    rw [Reading.apply_capture] at h
    split at h <;> cases h
    exact Nat.le_succ _
  | plain flags => cases h; exact Nat.le_refl _
  | flags flags => cases h; exact Nat.le_refl _
  | close =>
    obtain ⟨parent, outer, -, rfl⟩ := Reading.exists_of_apply_close h
    exact Nat.le_refl _
  | bar => cases h; exact Nat.le_refl _
  | again min max lazy =>
    obtain ⟨piece, pieces, -, -, rfl⟩ := Reading.exists_of_apply_again h
    exact Nat.le_refl _

theorem Reading.Clear.groups_apply {r r' : Reading} (hr : r.Clear) {token : Token}
    (htoken : token.isContained = true) (h : r.apply token = some r') :
    r'.All (fun number name => name = none ∧ 0 < number ∧ number ≤ r'.captures)
      fun _ => False := by
  have hle := captures_le_of_apply h
  refine (hr.groups.mono fun number name hown =>
    ⟨hown.1, hown.2.1, Nat.le_trans hown.2.2 hle⟩).apply h (fun name heq => ?_)
      fun e depth heq => ?_
  · subst heq
    rw [Reading.apply_capture] at h
    split at h <;> cases h
    exact ⟨Option.isNone_iff_eq_none.mp htoken, Nat.succ_pos _, Nat.le_refl _⟩
  · subst heq
    cases e with
    | take leaf => trivial
    | _ => cases htoken

/-- A contained token keeps a reading clear. -/
theorem Reading.Clear.apply {r r' : Reading} (hr : r.Clear) {token : Token}
    (htoken : token.isContained = true) (h : r.apply token = some r') : r'.Clear := by
  have hgroups := hr.groups_apply htoken h
  obtain ⟨hlevel, houter⟩ := List.forall_mem_cons.mp hr.outerFlags
  cases token with
  | leaf e depth =>
    cases h
    exact ⟨hr.flags, List.forall_mem_cons.mpr ⟨hlevel, houter⟩, hr.names, hgroups⟩
  | capture name =>
    obtain rfl := Option.isNone_iff_eq_none.mp htoken
    cases h
    exact ⟨hr.flags, List.forall_mem_cons.mpr ⟨hr.flags, hr.outerFlags⟩, hr.names, hgroups⟩
  | plain flags =>
    obtain rfl := of_decide_eq_true htoken
    cases h
    exact ⟨rfl, List.forall_mem_cons.mpr ⟨hr.flags, hr.outerFlags⟩, hr.names, hgroups⟩
  | flags flags => cases htoken
  | close =>
    obtain ⟨parent, outer, hparent, rfl⟩ := Reading.exists_of_apply_close h
    rw [hparent, List.forall_mem_cons] at houter
    exact ⟨hlevel, List.forall_mem_cons.mpr houter, hr.names, hgroups⟩
  | bar =>
    cases h
    exact ⟨hr.flags, List.forall_mem_cons.mpr ⟨hlevel, houter⟩, hr.names, hgroups⟩
  | again min max lazy =>
    obtain ⟨piece, pieces, -, -, rfl⟩ := Reading.exists_of_apply_again h
    exact ⟨hr.flags, List.forall_mem_cons.mpr ⟨hlevel, houter⟩, hr.names, hgroups⟩

/-- A contained token does the same in a group. -/
theorem Reading.apply_within (base : Reading) {r r' : Reading} {token : Token}
    (htoken : token.isContained = true) (h : r.apply token = some r') :
    (base.within r).apply token = some (base.within r') := by
  cases token with
  | leaf e depth =>
    cases h
    rw [Reading.within_add]
    cases e with
    | take leaf => rfl
    | _ => cases htoken
  | capture name =>
    obtain rfl := Option.isNone_iff_eq_none.mp htoken
    cases h
    rfl
  | plain flags => cases h; rfl
  | flags flags => cases htoken
  | close =>
    obtain ⟨parent, outer, houter, rfl⟩ := Reading.exists_of_apply_close h
    rw [Reading.apply_close (by rw [Reading.within, houter]; rfl)]
    simp only [Reading.within, houter, settle, settle_add, Level.close_shift]
    rfl
  | bar =>
    cases h
    cases houter : r.outer with
    | nil =>
      have hbranch : (Level.into base.captures base.level r.level).branch =
          r.level.branch.shift base.captures := Level.branch_into ..
      simp only [Reading.apply, Reading.within, houter, settle, hbranch]
      rfl
    | cons parent outer =>
      have hbranch : (r.level.shift base.captures).branch = r.level.branch.shift base.captures :=
        Level.branch_into ..
      simp only [Reading.apply, Reading.within, houter, settle, hbranch]
      rfl
  | again min max lazy =>
    obtain ⟨piece, pieces, hpieces, hrepeatable, rfl⟩ := Reading.exists_of_apply_again h
    have hloop := Expr.shift_repeated base.captures min max (lazy == r.flags.swapGreed) piece.expr
    cases houter : r.outer with
    | nil =>
      simp [Reading.apply, Reading.within, houter, settle, Level.into, hpieces, hrepeatable,
        Piece.shift, hloop]
    | cons parent outer =>
      simp [Reading.apply, Reading.within, houter, settle, Level.shift, Level.into, hpieces,
        hrepeatable, Piece.shift, hloop]

/-- A contained text is read in a group as it is read on its own. -/
theorem readTokens_within (base : Reading) {cs more : List Char} (hcs : Contained cs)
    (hmore : Closing {} more) {r r' : Reading} (hr : r.Clear)
    (h : readTokens r cs = some r') :
    r'.Clear ∧ readTokens (base.within r) (cs ++ more) = readTokens (base.within r') more := by
  induction hcs generalizing r with
  | nil =>
    rw [readTokens_nil] at h
    cases h
    exact ⟨hr, rfl⟩
  | @token cs rest token hread htoken _ ih =>
    rw [readTokens_of_token hr.flags hread] at h
    obtain ⟨next, happly, hnext⟩ := Option.bind_eq_some_iff.mp h
    obtain ⟨hclear, hrest⟩ := ih (hr.apply htoken happly) hnext
    obtain ⟨rest', hread', rfl | ⟨-, -, hverbose, -⟩⟩ := readToken_append hmore hread
    · refine ⟨hclear, ?_⟩
      have hflags : (base.within r).flags = {} := hr.flags
      rw [readTokens_of_token hflags hread', Reading.apply_within base htoken happly]
      exact hrest
    · cases hverbose

/-! ## The group around a contained text -/

/-- What a text is read as: an expression with groups of its own, how deeply it
is nested and how many groups began in it. -/
structure Part where
  expr : Pattern
  depth : Nat
  groups : Nat
  own : OwnGroups groups expr

/-- The group around a part, of which `offset` groups began before the part. -/
def Part.closed (part : Part) (capture : Option (Nat × Option String))
    (offset : Nat) : Piece :=
  match capture with
  | none => ⟨part.expr.shift offset, part.depth + 1, true⟩
  | some (number, name) => ⟨.group number name (part.expr.shift offset), part.depth + 1, true⟩

/-- Every group that has just been opened before the text holds the text as the
given part when it is closed behind it. -/
structure HeldAs (text : List Char) (part : Part) : Prop where
  head : text.head? ≠ some '?'
  closes : ∀ {r : Reading} {capture : Option (Nat × Option String)} {parent : Level}
    {outer : List Level} (rest : List Char), r.flags = {} → r.level = ⟨capture, {}, [], []⟩ →
      r.outer = parent :: outer →
        readTokens r (text ++ ')' :: rest) = readTokens { r with
          captures := r.captures + part.groups
          level := parent.add (part.closed capture r.captures)
          outer := outer } rest

theorem Level.close_into {l : Level} {part : Part} (hexpr : l.body.expr = part.expr)
    (hdepth : l.body.depth = part.depth) (capture : Option (Nat × Option String))
    (offset : Nat) :
    (Level.into offset ⟨capture, {}, [], []⟩ l).close = part.closed capture offset := by
  unfold Level.close Part.closed
  rw [Level.body_into, Piece.shift, hexpr, hdepth]
  cases capture <;> rfl

theorem closing_close (rest : List Char) : Closing {} (')' :: rest) where
  sign := ⟨')', rest, rfl, .inl rfl⟩
  signs := nofun

/-- An expression does not begin with a repetition. -/
theorem head?_of_ofText? [SizeLimit] {text : List Char} {e : Pattern}
    (h : Pattern.ofText? text = some e) : text.head? ≠ some '?' := by
  intro hhead
  obtain ⟨rest, rfl⟩ : ∃ rest, text = '?' :: rest := by
    cases text with
    | nil => cases hhead
    | cons c rest => exact ⟨rest, by rw [Option.some.inj hhead]⟩
  obtain ⟨r, hread, -⟩ := Option.bind_eq_some_iff.mp h
  obtain ⟨lazy, rest', htoken⟩ : ∃ lazy rest',
      readToken {} ('?' :: rest) = some (.again 0 (some 1) lazy, rest') := by
    show ∃ lazy rest', some (withLaziness 0 (some 1) rest) = some (.again 0 (some 1) lazy, rest')
    unfold withLaziness
    split
    · exact ⟨true, _, rfl⟩
    · exact ⟨false, _, rfl⟩
  have hclear : Reading.start.flags = {} := rfl
  rw [readTokens_of_token hclear htoken] at hread
  cases hread

/-- A contained text that is an expression on its own is held by every group. -/
theorem exists_heldAs [SizeLimit] {text : List Char} {e : Pattern}
    (htext : Contained text)
    (h : Pattern.ofText? text = some e) : ∃ part :
    Part, part.expr = e ∧ HeldAs text part := by
  obtain ⟨last, hread, hfinish⟩ := Option.bind_eq_some_iff.mp h
  obtain ⟨houter, -, -, hexpr⟩ := Reading.finish_eq_some_iff.mp hfinish
  have hown : OwnGroups last.captures e := by
    have hclear := (readTokens_within Reading.start htext (closing_close []) .start hread).1
    exact hclear.groups.finish hfinish
  refine ⟨⟨e, last.level.body.depth, last.captures, hown⟩, rfl, head?_of_ofText? h, ?_⟩
  intro r capture parent outer rest hflags hlevel hparent
  obtain ⟨hclear, hwithin⟩ :=
    readTokens_within r htext (closing_close rest) .start hread
  have hstart : r.within Reading.start = r :=
    Reading.within_start hflags (by rw [hlevel]) (by rw [hlevel])
  have hclose : readToken {} (')' :: rest) = some (.close, rest) := rfl
  have hcloseFlags : (r.within last).flags = {} := hclear.flags
  have hcloseOuter : (r.within last).outer = parent :: outer := by
    rw [Reading.within, houter]
    exact hparent
  have hcloseLevel :
      (r.within last).level = Level.into r.captures ⟨capture, {}, [], []⟩ last.level := by
    rw [Reading.within, houter, hlevel]
    rfl
  have hgroup : (Level.into r.captures ⟨capture, {}, [], []⟩ last.level).close =
      Part.closed ⟨e, last.level.body.depth, last.captures, hown⟩ capture r.captures :=
    Level.close_into hexpr rfl capture r.captures
  rw [← hstart, hwithin, readTokens_of_token hcloseFlags hclose, Reading.apply_close hcloseOuter,
    Option.bind_some, hcloseLevel, hstart, hgroup]
  simp only [Reading.within, hclear.names, List.nil_append, Level.into, hflags]

end UrlRouting.Regex
