import UrlRouting.Proofs.Regex.Frames

/-!
# The groups and the tests of what is read

A group of an expression was opened by a token of its text, under the number
that was next, and a test was read as a token. So what holds of every group and
every test that a token brings holds of all of them in the expression. For one
thing, the reader takes no name that a group may not carry, so every name of a
group is one that it may.

Main statement: `isGroupName_of_mem_namedGroups`.
-/

namespace UrlRouting.Regex

/-! ## Expressions -/

section Expressions

variable {ρ τ : Type} {P Q : Nat → Option String → Prop} {T : τ → Prop}

/-- `P` holds of the number and the name of every group, and `T` of every test. -/
def Expr.All (P : Nat → Option String → Prop) (T : τ → Prop) : Expr ρ τ → Prop
  | .empty => True
  | .take _ => True
  | .test leaf => T leaf
  | .group number name inner => P number name ∧ inner.All P T
  | .seq a b => a.All P T ∧ b.All P T
  | .alt a b => a.All P T ∧ b.All P T
  | .loop _ _ _ body => body.All P T

namespace Expr.All

theorem mono (h : ∀ number name, P number name → Q number name) {e : Expr ρ τ}
    (he : e.All P T) : e.All Q T := by
  induction e with
  | empty => trivial
  | take leaf => trivial
  | test leaf => exact he
  | group number name inner ih => exact ⟨h number name he.1, ih he.2⟩
  | seq a b iha ihb => exact ⟨iha he.1, ihb he.2⟩
  | alt a b iha ihb => exact ⟨iha he.1, ihb he.2⟩
  | loop min max greedy body ih => exact ih he

theorem map {ρ' τ' : Type} {f : ρ → ρ'} {g : τ → τ'} {T' : τ' → Prop} {e : Expr ρ τ}
    (h : ∀ leaf, T leaf → T' (g leaf)) (he : e.All P T) : (e.map f g).All P T' := by
  induction e with
  | empty => trivial
  | take leaf => trivial
  | test leaf => exact h leaf he
  | group number name inner ih => exact ⟨he.1, ih he.2⟩
  | seq a b iha ihb => exact ⟨iha he.1, ihb he.2⟩
  | alt a b iha ihb => exact ⟨iha he.1, ihb he.2⟩
  | loop min max greedy body ih => exact ih he

theorem of_mem_namedGroups {e : Expr ρ τ} (he : e.All P T) {number : Nat} {name : String}
    (h : (number, name) ∈ e.namedGroups) : P number (some name) := by
  induction e with
  | empty => cases h
  | take leaf => cases h
  | test leaf => cases h
  | group own ownName inner ih =>
    rcases List.mem_append.mp h with h | h
    · obtain ⟨_, rfl, heq⟩ := Option.map_eq_some_iff.mp (Option.mem_toList.mp h)
      cases heq
      exact he.1
    · exact ih he.2 h
  | seq a b iha ihb => exact (List.mem_append.mp h).elim (iha he.1) (ihb he.2)
  | alt a b iha ihb => exact (List.mem_append.mp h).elim (iha he.1) (ihb he.2)
  | loop min max greedy body ih => exact ih he h

theorem concat {es : List (Expr ρ τ)} (h : ∀ e ∈ es, e.All P T) :
    (Expr.concat es).All P T := by
  have hfold : ∀ (rest : List (Expr ρ τ)) (e : Expr ρ τ), e.All P T →
      (∀ e ∈ rest, e.All P T) → (rest.foldl Expr.seq e).All P T := by
    intro rest
    induction rest with
    | nil => exact fun _ he _ => he
    | cons next rest ih =>
      intro e he hrest
      rw [List.forall_mem_cons] at hrest
      exact ih (.seq e next) ⟨he, hrest.1⟩ hrest.2
  cases es with
  | nil => trivial
  | cons e rest =>
    rw [List.forall_mem_cons] at h
    exact hfold rest e h.1 h.2

theorem choice {first : Expr ρ τ} {rest : List (Expr ρ τ)} (hfirst : first.All P T)
    (h : ∀ e ∈ rest, e.All P T) : (Expr.choice first rest).All P T := by
  induction rest generalizing first with
  | nil => exact hfirst
  | cons e rest ih =>
    rw [List.forall_mem_cons] at h
    exact ⟨hfirst, ih h.1 h.2⟩

theorem repeated {body : Expr ρ τ} (h : body.All P T) (min : Nat) (max : Option Nat)
    (greedy : Bool) : (Expr.repeated min max greedy body).All P T := by
  unfold Expr.repeated
  generalize (if body.takesNothing = true then _ else _ : Nat × Option Nat) = bounds
  obtain ⟨least, most⟩ := bounds
  dsimp only
  split
  · trivial
  · split <;> exact h

end Expr.All

end Expressions

/-! ## Readings -/

variable {P Q : Nat → Option String → Prop} {T : Look → Prop}

/-- `P` holds of the group that a level is, if it is one, and of every group in
it, and `T` of every test. -/
structure Level.All (P : Nat → Option String → Prop) (T : Look → Prop)
    (l : Level) : Prop where
  capture : ∀ number name, l.capture = some (number, name) → P number name
  branches : ∀ piece ∈ l.branches, piece.expr.All P T
  pieces : ∀ piece ∈ l.pieces, piece.expr.All P T

structure Reading.All (P : Nat → Option String → Prop) (T : Look → Prop)
    (r : Reading) : Prop where
  level : r.level.All P T
  outer : ∀ l ∈ r.outer, l.All P T

namespace Level.All

variable {l : Level}

theorem mono (h : ∀ number name, P number name → Q number name) (hl : l.All P T) :
    l.All Q T where
  capture number name hcapture := h number name (hl.capture number name hcapture)
  branches piece hmem := (hl.branches piece hmem).mono h
  pieces piece hmem := (hl.pieces piece hmem).mono h

theorem branch (h : l.All P T) : l.branch.expr.All P T := by
  rw [Level.expr_branch]
  refine .concat fun e he => ?_
  obtain ⟨piece, hmem, rfl⟩ := List.mem_map.mp he
  exact h.pieces piece (List.mem_reverse.mp hmem)

theorem body (h : l.All P T) : l.body.expr.All P T := by
  have hparts : ∀ piece ∈ (l.branch :: l.branches).reverse, piece.expr.All P T := by
    intro piece hmem
    rcases List.mem_cons.mp (List.mem_reverse.mp hmem) with rfl | hmem
    · exact h.branch
    · exact h.branches piece hmem
  unfold Level.body
  dsimp only
  split
  · exact h.branch
  · next piece heq => exact hparts piece (by rw [heq]; exact List.mem_singleton_self _)
  · next first rest _ heq =>
    rw [heq, List.forall_mem_cons] at hparts
    refine .choice hparts.1 fun e he => ?_
    obtain ⟨piece, hmem, rfl⟩ := List.mem_map.mp he
    exact hparts.2 piece hmem

theorem close (h : l.All P T) : l.close.expr.All P T := by
  unfold Level.close
  cases hcapture : l.capture with
  | none => exact h.body
  | some capture =>
    obtain ⟨number, name⟩ := capture
    exact ⟨h.capture number name hcapture, h.body⟩

theorem add (h : l.All P T) {piece : Piece} (hpiece : piece.expr.All P T) :
    (l.add piece).All P T where
  capture := h.capture
  branches := h.branches
  pieces := List.forall_mem_cons.mpr ⟨hpiece, h.pieces⟩

/-- A group that has just been opened has nothing in it yet. -/
theorem opened {capture : Option (Nat × Option String)} (flags : Flags)
    (h : ∀ number name, capture = some (number, name) → P number name) :
    (Level.mk capture flags [] []).All P T :=
  ⟨h, nofun, nofun⟩

end Level.All

namespace Reading.All

variable {r r' : Reading}

theorem mono (h : ∀ number name, P number name → Q number name) (hr : r.All P T) :
    r.All Q T :=
  ⟨hr.level.mono h, fun l hmem => (hr.outer l hmem).mono h⟩

theorem start : Reading.start.All P T :=
  ⟨.opened _ nofun, nofun⟩

/-- A token opens at most one group, under the number that is next. -/
theorem apply (hr : r.All P T) {token : Token} (happly : r.apply token = some r')
    (hopen : ∀ name, token = .capture name → P (r.captures + 1) name)
    (hleaf : ∀ e depth, token = .leaf e depth → e.All P T) : r'.All P T := by
  have haround : ∀ l ∈ r.level :: r.outer, l.All P T :=
    List.forall_mem_cons.mpr ⟨hr.level, hr.outer⟩
  cases token with
  | leaf e depth =>
    cases happly
    exact ⟨hr.level.add (hleaf e depth rfl), hr.outer⟩
  | capture name =>
    rw [Reading.apply_capture] at happly
    split at happly <;> cases happly
    have hnext : ∀ number name', some (r.captures + 1, name) = some (number, name') →
        P number name' := by
      rintro number name' ⟨⟩
      exact hopen name rfl
    exact ⟨.opened _ hnext, haround⟩
  | plain flags =>
    cases happly
    exact ⟨.opened _ nofun, haround⟩
  | flags flags =>
    cases happly
    exact ⟨hr.level.add trivial, hr.outer⟩
  | close =>
    obtain ⟨parent, outer, houter, rfl⟩ := Reading.exists_of_apply_close happly
    obtain ⟨hparent, hrest⟩ := List.forall_mem_cons.mp (houter ▸ hr.outer)
    exact ⟨hparent.add hr.level.close, hrest⟩
  | bar =>
    cases happly
    exact ⟨⟨hr.level.capture, List.forall_mem_cons.mpr ⟨hr.level.branch, hr.level.branches⟩, nofun⟩,
      hr.outer⟩
  | again min max lazy =>
    obtain ⟨piece, pieces, hpieces, -, rfl⟩ := Reading.exists_of_apply_again happly
    obtain ⟨hpiece, hrest⟩ := List.forall_mem_cons.mp (hpieces ▸ hr.level.pieces)
    exact ⟨⟨hr.level.capture, hr.level.branches,
      List.forall_mem_cons.mpr ⟨hpiece.repeated min max _, hrest⟩⟩, hr.outer⟩

/-- The groups of the whole expression. -/
theorem finish [SizeLimit] (hr : r.All P T) {e : Pattern}
    (h : r.finish = some e) : e.All P T := by
  obtain ⟨-, -, -, rfl⟩ := Reading.finish_eq_some_iff.mp h
  exact hr.level.body

end Reading.All

/-! ## Names -/

theorem isGroupName_of_readName {cs rest : List Char} {name : String}
    (h : readName cs = some (name, rest)) : isGroupName name.toList = true := by
  obtain ⟨⟨text, after⟩, -, h⟩ := Option.bind_eq_some_iff.mp h
  dsimp only at h
  split at h
  · next hname =>
    cases h
    rwa [String.toList_ofList]
  · cases h

/-- What a token of a text is like: a leaf takes a character or tests a
position, and a name that opens a group is one that a group may carry. -/
def Token.Written : Token → Prop
  | .leaf e _ => (∃ cls, e = .take cls) ∨ ∃ l, e = .test l
  | .capture name => ∀ own, name = some own → isGroupName own.toList = true
  | _ => True

theorem written_of_withLaziness {min : Nat} {max : Option Nat} {cs rest : List Char}
    {token : Token} (h : withLaziness min max cs = (token, rest)) : token.Written := by
  unfold withLaziness at h
  split at h <;> cases h <;> trivial

theorem written_of_readOpen {f : Flags} {cs rest : List Char} {token : Token}
    (h : readOpen f cs = some (token, rest)) : token.Written := by
  rcases readOpen_eq_some_iff.mp h with ⟨-, rfl, -⟩ | ⟨_, name, -, hname, rfl⟩ |
    ⟨_, _, _, _, -, -, ⟨-, rfl⟩ | ⟨-, -, rfl⟩⟩
  · exact nofun
  · intro own heq
    cases heq
    exact isGroupName_of_readName hname
  · trivial
  · trivial

theorem written_of_dotLeaf? {f : Flags} {e : Pattern} (depth : Nat)
    (h : dotLeaf? f = some e) :
    (Token.leaf e depth).Written := by
  unfold dotLeaf? at h
  split at h
  · cases h
  · split at h
    · exact .inl ⟨_, (Option.some.inj h).symm⟩
    · split at h <;> exact .inl ⟨_, (Option.some.inj h).symm⟩

theorem written_of_escapeLeaf? {f : Flags} {escape : Escape} {e : Pattern} (depth : Nat)
    (h : escapeLeaf? f escape = some e) : (Token.leaf e depth).Written := by
  unfold escapeLeaf? at h
  split at h
  · exact .inl ⟨_, (Option.some.inj h).symm⟩
  · exact .inr ⟨_, (Option.some.inj h).symm⟩
  · obtain ⟨cls, -, heq⟩ := Option.map_eq_some_iff.mp h
    exact .inl ⟨cls, heq.symm⟩

theorem written_of_readToken {f : Flags} {cs rest : List Char} {token : Token}
    (h : readToken f cs = some (token, rest)) : token.Written := by
  cases cs with
  | nil => cases h
  | cons c tail =>
    unfold readToken at h
    dsimp only at h
    split at h
    case h_1 => exact written_of_readOpen h
    case h_4 =>
      obtain ⟨⟨part, after⟩, -, heq⟩ := Option.map_eq_some_iff.mp h
      cases heq
      exact .inl ⟨_, rfl⟩
    case h_5 | h_6 | h_7 => exact written_of_withLaziness (Option.some.inj h)
    case h_8 =>
      obtain ⟨⟨min, max, after⟩, -, heq⟩ := Option.map_eq_some_iff.mp h
      exact written_of_withLaziness heq
    case h_9 =>
      obtain ⟨⟨escape, after⟩, -, h⟩ := Option.bind_eq_some_iff.mp h
      obtain ⟨e, he, h⟩ := Option.bind_eq_some_iff.mp h
      cases h
      exact written_of_escapeLeaf? 0 he
    case h_10 =>
      obtain ⟨e, he, heq⟩ := Option.map_eq_some_iff.mp h
      cases heq
      exact written_of_dotLeaf? 0 he
    case h_13 =>
      cases h
      exact .inl ⟨_, rfl⟩
    case h_2 | h_3 =>
      cases h
      trivial
    case h_11 | h_12 =>
      cases h
      exact .inr ⟨_, rfl⟩

/-- What holds of every group whose name is one that it may carry holds of all that are
read. -/
theorem all_of_readTokens
    (hP : ∀ number name, (∀ own, name = some own → isGroupName own.toList = true) → P number name)
    (hT : ∀ l, T l)
    {r r' : Reading} {cs : List Char} (hr : r.All P T) (h : readTokens r cs = some r') :
    r'.All P T := by
  refine readTokens_induction (fun htoken happly hr => ?_) hr h
  have hwritten := written_of_readToken htoken
  refine hr.apply happly (fun name heq => ?_) fun e depth heq => ?_
  · subst heq
    exact hP _ _ hwritten
  · subst heq
    rcases hwritten with ⟨_, rfl⟩ | ⟨l, rfl⟩
    · trivial
    · exact hT l

/-- Every name of a group of an expression that a text writes is one that it may
carry. -/
theorem isGroupName_of_mem_namedGroups [SizeLimit] {text : List Char} {e : Pattern}
    (h : Pattern.ofText? text = some e) {number : Nat} {name : String}
    (hmem : (number, name) ∈ e.namedGroups) : isGroupName name.toList = true := by
  obtain ⟨whole, hread, hfinish⟩ := Option.bind_eq_some_iff.mp h
  have hstart : Reading.start.All
      (fun _ name => ∀ own, name = some own → isGroupName own.toList = true) (fun _ => True) :=
    .start
  have hwhole := all_of_readTokens (fun _ _ h => h) (fun _ => trivial) hstart hread
  exact (hwhole.finish hfinish).of_mem_namedGroups hmem name rfl

end UrlRouting.Regex
