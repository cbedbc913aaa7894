import UrlRouting.Proofs.Regex.Continuation.Token
import UrlRouting.Proofs.Regex.Reading

/-!
# Reading a text inside another one

A text that can be read on its own is read in the same way behind an anchor or inside a
group, and with closing signs behind it: every level but the outermost is the same. What
stands around the text then binds it as a whole. For a group, it is enough that the
text closes all groups that it opens, and no other. For an anchor, the text must have no
bar outside its groups.

Main statements: `exists_concat_of_group` and `exists_concat_of_anchors`.
-/

namespace UrlRouting.Regex

/-! ## Frames -/

/-- Puts something around a reading, as far as a condition on the reading holds, so that
every token does the same as before. -/
structure Frame (around : Reading → Reading) (holds : Reading → Prop) : Prop where
  flags : ∀ r, (around r).flags = r.flags
  apply : ∀ {r token r'}, r.apply token = some r' → holds r' →
    holds r ∧ (around r).apply token = some (around r')

theorem Flags.skip_closing {f : Flags} {more : List Char} (hmore : Closing f more) :
    f.skip more = more := by
  obtain ⟨c, rest, rfl, hc⟩ := hmore.sign
  unfold Flags.skip
  split
  · rcases hc with rfl | rfl <;> rfl
  · rfl

/-- What is passed over does not count. -/
theorem readTokens_congr {r : Reading} {cs cs' : List Char}
    (h : r.flags.skip cs = r.flags.skip cs') : readTokens r cs = readTokens r cs' := by
  cases hskip : r.flags.skip cs with
  | nil => rw [readTokens_of_skip_nil hskip, readTokens_of_skip_nil (h ▸ hskip)]
  | cons c tail =>
    cases htoken : readToken r.flags (c :: tail) with
    | some read =>
      rw [readTokens_of_readToken (hskip ▸ htoken), readTokens_of_readToken (h ▸ hskip ▸ htoken)]
    | none =>
      rw [readTokens_of_readToken_none hskip htoken,
        readTokens_of_readToken_none (h ▸ hskip) htoken]

/-- What is repeated stands in front. -/
theorem Reading.exists_of_apply_again {r r' : Reading} {min : Nat}
    {max : Option Nat} {lazy : Bool} (h : r.apply (.again min max lazy) = some r') :
    ∃ piece pieces, r.level.pieces = piece :: pieces ∧ piece.repeatable = true ∧
      r' = { r with level := { r.level with
        pieces := ⟨Expr.repeated min max (lazy == r.flags.swapGreed) piece.expr,
          piece.depth + 1, true⟩ :: pieces } } := by
  simp only [Reading.apply] at h
  split at h
  · cases h
  · next piece pieces hpieces =>
    split at h
    · next hrepeatable => exact ⟨piece, pieces, hpieces, hrepeatable, (Option.some.inj h).symm⟩
    · cases h

/-- What is closed stands inside something. -/
theorem Reading.exists_of_apply_close {r r' : Reading} (h : r.apply .close = some r') :
    ∃ parent outer, r.outer = parent :: outer ∧
      r' = { r with
        flags := r.level.outerFlags, level := parent.add r.level.close, outer := outer } := by
  simp only [Reading.apply] at h
  split at h
  · cases h
  · next parent outer houter => exact ⟨parent, outer, houter, (Option.some.inj h).symm⟩

theorem Reading.flags_of_apply {r r' : Reading} {token : Token}
    (h : r.apply token = some r')
    (hkeeps : token.keepsFlags = true) : r'.flags = r.flags := by
  cases token with
  | leaf e depth => cases h; rfl
  | capture name =>
    rw [Reading.apply_capture] at h
    split at h <;> cases h
    rfl
  | plain flags => cases hkeeps
  | flags flags => cases hkeeps
  | close => cases hkeeps
  | bar => cases h; rfl
  | again min max lazy =>
    obtain ⟨piece, pieces, -, -, rfl⟩ := Reading.exists_of_apply_again h
    rfl

section

variable {around : Reading → Reading} {holds : Reading → Prop} {more : List Char}

/-- Inside a frame and with signs behind it, a text is read as it is alone and then the
signs are read, if no comment takes them. -/
theorem Frame.readTokens (hframe : Frame around holds) (hmore : ∀ f, Closing f more)
    {r r' : Reading} {cs : List Char} (h : Regex.readTokens r cs = some r')
    (hholds : holds r') :
    holds r ∧
      (Regex.readTokens (around r) (cs ++ more) = Regex.readTokens (around r') more ∨
        (r'.flags.verbose = true ∧
          Regex.readTokens (around r) (cs ++ more) = some (around r'))) := by
  induction r, cs using readTokens.induct with
  | case1 r cs hskip =>
    rw [readTokens_of_skip_nil hskip] at h
    obtain rfl := Option.some.inj h
    refine ⟨hholds, ?_⟩
    -- only blanks and comments are left, and a last comment takes the signs with it
    rcases r.flags.skip_append (hmore _) cs with happend | ⟨-, hnil, hverbose⟩
    · left
      apply readTokens_congr
      rw [hframe.flags, happend, hskip, List.nil_append, Flags.skip_closing (hmore _)]
    · exact .inr ⟨hverbose, readTokens_of_skip_nil (by rw [hframe.flags]; exact hnil)⟩
  | case2 r cs c tail hskip htoken =>
    rw [readTokens_of_readToken_none hskip htoken] at h
    cases h
  | case3 r cs c tail hskip token rest htoken _ happly =>
    rw [readTokens_of_readToken (hskip ▸ htoken), happly] at h
    cases h
  | case4 r cs c tail hskip token rest htoken _ next happly ih =>
    rw [readTokens_of_readToken (hskip ▸ htoken), happly, Option.bind_some] at h
    obtain ⟨hnext, hrest⟩ := ih h
    obtain ⟨hr, happly'⟩ := hframe.apply happly hnext
    refine ⟨hr, ?_⟩
    obtain ⟨rest', htoken', hbehind⟩ := readToken_append (hmore _) htoken
    have hstep : Regex.readTokens (around r) (cs ++ more) =
        Regex.readTokens (around next) rest' := by
      rw [List.cons_append, ← Flags.skip_append_of_cons (hmore _) hskip, ← hframe.flags] at htoken'
      rw [readTokens_of_readToken htoken', happly', Option.bind_some]
    rw [hstep]
    rcases hbehind with rfl | ⟨rfl, rfl, hverbose, hkeeps⟩
    · exact hrest
    · -- a comment takes the signs, so the token was the last
      rw [readTokens_nil] at h ⊢
      obtain rfl := Option.some.inj h
      exact .inr ⟨by rw [Reading.flags_of_apply happly hkeeps]; exact hverbose, rfl⟩

end

/-! ## Inside a group -/

/-- The reading with further levels around it. -/
def Reading.inside (around : List Level) (r : Reading) : Reading :=
  { r with outer := r.outer ++ around }

theorem frame_inside (around : List Level) :
    Frame (Reading.inside around) fun _ => True where
  flags _ := rfl
  apply := by
    intro r token r' h _
    refine ⟨trivial, ?_⟩
    cases token with
    | leaf e depth => cases h; rfl
    | capture name =>
      rw [Reading.apply_capture] at h ⊢
      split at h
      · cases h
      · next hfree =>
        cases h
        rw [if_neg (show ¬ name.any (r.inside around).names.contains = true from hfree)]
        rfl
    | plain flags => cases h; rfl
    | flags flags => cases h; rfl
    | close =>
      obtain ⟨parent, outer, houter, rfl⟩ := Reading.exists_of_apply_close h
      exact Reading.apply_close (by rw [Reading.inside, houter]; rfl)
    | bar => cases h; rfl
    | again min max lazy =>
      obtain ⟨piece, pieces, hpieces, hrepeatable, rfl⟩ := Reading.exists_of_apply_again h
      simp [Reading.apply, Reading.inside, hpieces, hrepeatable]

/-! ## Behind an anchor -/

/-- The level under all open groups. -/
def outermost : Level → List Level → Level
  | l, [] => l
  | _, parent :: rest => outermost parent rest

/-- The levels with a piece before all others. -/
def putFirst (piece : Piece) : Level → List Level → Level × List Level
  | l, [] => ({ l with pieces := l.pieces ++ [piece] }, [])
  | l, parent :: rest => (l, (putFirst piece parent rest).1 :: (putFirst piece parent rest).2)

/-- The reading with a piece before all others. -/
def Reading.after (piece : Piece) (r : Reading) : Reading :=
  { r with
    level := (putFirst piece r.level r.outer).1
    outer := (putFirst piece r.level r.outer).2 }

/-- What is done to the pieces that there are goes on behind the piece in front. -/
theorem putFirst_add (first piece : Piece) (l : Level) (outer : List Level) :
    putFirst first (l.add piece) outer =
      ((putFirst first l outer).1.add piece, (putFirst first l outer).2) := by
  cases outer <;> rfl

theorem Reading.after_add (first piece : Piece) (r : Reading) :
    (r.add piece).after first = (r.after first).add piece := by
  simp only [Reading.after, Reading.add, putFirst_add]

/-- A piece more changes nothing about the outermost bars. -/
theorem branches_outermost_add (piece : Piece) (l : Level) (outer : List Level) :
    (outermost (l.add piece) outer).branches = (outermost l outer).branches := by
  cases outer <;> rfl

theorem frame_after (first : Piece) :
    Frame (Reading.after first) fun r => (outermost r.level r.outer).branches = [] where
  flags _ := rfl
  apply := by
    intro r token r' h hholds
    cases token with
    | leaf e depth =>
      cases h
      exact ⟨(branches_outermost_add ..).symm.trans hholds, by rw [Reading.after_add]; rfl⟩
    | capture name =>
      rw [Reading.apply_capture] at h ⊢
      split at h
      · cases h
      · next hfree =>
        cases h
        refine ⟨hholds, ?_⟩
        rw [if_neg (show ¬ name.any (r.after first).names.contains = true from hfree)]
        rfl
    | plain flags => cases h; exact ⟨hholds, rfl⟩
    | flags flags =>
      cases h
      refine ⟨(branches_outermost_add ..).symm.trans hholds, ?_⟩
      show some { (r.after first).add _ with flags := flags } = _
      rw [← Reading.after_add]
      rfl
    | close =>
      obtain ⟨parent, outer, houter, rfl⟩ := Reading.exists_of_apply_close h
      refine ⟨?_, ?_⟩
      · -- the level that ends is not the outermost one
        rw [houter]
        show (outermost parent outer).branches = []
        exact (branches_outermost_add ..).symm.trans hholds
      · rw [Reading.apply_close (by rw [Reading.after, houter]; rfl)]
        simp only [Reading.after, houter, putFirst, putFirst_add]
    | bar =>
      cases h
      cases houter : r.outer with
      -- outside all groups, the bar is what the condition excludes
      | nil => simp [outermost, houter] at hholds
      | cons parent outer =>
        refine ⟨by simpa [outermost, houter] using hholds, ?_⟩
        simp [Reading.apply, Reading.after, houter, putFirst, Level.branch]
    | again min max lazy =>
      obtain ⟨piece, pieces, hpieces, hrepeatable, rfl⟩ := Reading.exists_of_apply_again h
      cases houter : r.outer with
      | nil =>
        refine ⟨by simpa [outermost, houter] using hholds, ?_⟩
        simp [Reading.apply, Reading.after, houter, putFirst, hpieces, hrepeatable]
      | cons parent outer =>
        refine ⟨by simpa [outermost, houter] using hholds, ?_⟩
        simp [Reading.apply, Reading.after, houter, putFirst, hpieces, hrepeatable]

/-! ## What holds behind the outermost group -/

theorem outerFlags_outermost_add (piece : Piece) (l : Level) (outer : List Level) :
    (outermost (l.add piece) outer).outerFlags = (outermost l outer).outerFlags := by
  cases outer <;> rfl

theorem outerFlags_outermost_of_apply {r r' : Reading} {token : Token}
    (h : r.apply token = some r') :
    (outermost r'.level r'.outer).outerFlags = (outermost r.level r.outer).outerFlags := by
  cases token with
  | leaf e depth => cases h; exact outerFlags_outermost_add ..
  | capture name =>
    rw [Reading.apply_capture] at h
    split at h <;> cases h
    rfl
  | plain flags => cases h; rfl
  | flags flags => cases h; exact outerFlags_outermost_add ..
  | close =>
    obtain ⟨parent, outer, houter, rfl⟩ := Reading.exists_of_apply_close h
    rw [houter]
    exact outerFlags_outermost_add ..
  | bar => cases h; cases r.outer <;> rfl
  | again min max lazy =>
    obtain ⟨piece, pieces, -, -, rfl⟩ := Reading.exists_of_apply_again h
    cases r.outer <;> rfl

/-- No text changes the flags that hold behind what is read. -/
theorem outerFlags_outermost_of_readTokens {r r' : Reading} {cs : List Char}
    (h : readTokens r cs = some r') :
    (outermost r'.level r'.outer).outerFlags = (outermost r.level r.outer).outerFlags :=
  readTokens_induction
    (motive := fun next => (outermost next.level next.outer).outerFlags =
      (outermost r.level r.outer).outerFlags)
    (fun _ happly heq => (outerFlags_outermost_of_apply happly).trans heq) rfl h

/-! ## Anchors -/

/-- The anchors take in the group between them, if the text inside closes all
groups that it opens, and no other. -/
theorem exists_concat_of_group [SizeLimit] {text : List Char} {r : Reading} {e : Pattern}
    (hread : readTokens Reading.start text = some r) (hclosed : r.outer = [])
    (he : Pattern.ofText? ('^' :: '(' :: '?' :: ':' :: (text ++ [')', '$'])) = some e) :
    ∃ es, e = Expr.concat (.test .textStart :: es ++ [.test .textEnd]) := by
  obtain ⟨whole, hwhole, hfinish⟩ := Option.bind_eq_some_iff.mp he
  have hopen : ∀ cs, readToken {} ('(' :: '?' :: ':' :: cs) = some (.plain {}, cs) := fun _ => rfl
  have hclear : (Reading.start.add Piece.textStart).flags = {} := rfl
  rw [readTokens_textStart, readTokens_of_token hclear (hopen _)] at hwhole
  let front : Level := ⟨none, {}, [], [Piece.textStart]⟩
  change readTokens (Reading.start.inside [front]) (text ++ [')', '$']) = some whole at hwhole
  have hmore : ∀ f, Closing f [')', '$'] := closing_of_signs (by simp) (by simp)
  rcases ((frame_inside [front]).readTokens hmore hread trivial).2 with hinside | ⟨-, hinside⟩
  · rw [hinside] at hwhole
    have houter : (r.inside [front]).outer = [front] := by rw [Reading.inside, hclosed]; rfl
    -- what the text sets ends with the group, so the dollar sign means the end
    -- of all text
    have hflags : r.level.outerFlags = {} := by
      have := outerFlags_outermost_of_readTokens hread
      rwa [hclosed] at this
    have hclose : readToken (r.inside [front]).flags ((r.inside [front]).flags.skip [')', '$']) =
        some (.close, ['$']) := by
      rw [Flags.skip_closing (hmore _)]
      rfl
    rw [readTokens_of_readToken hclose, Reading.apply_close houter, Option.bind_some,
      readTokens_textEnd (by show r.level.outerFlags.multiLine = false; rw [hflags])] at hwhole
    cases hwhole
    exact ⟨[(r.inside [front]).level.close.expr], Reading.expr_of_finish rfl hfinish⟩
  · -- a comment took the closing signs, and the group stays open
    rw [hinside] at hwhole
    cases hwhole
    simp [Reading.finish_eq_some_iff, Reading.inside] at hfinish

/-- The anchors take in the text between them, if it closes all groups that it
opens, has no bar outside of them and does not change what the end anchor
means. -/
theorem exists_concat_of_anchors [SizeLimit] {text : List Char} {r : Reading}
    {e : Pattern}
    (hread : readTokens Reading.start text = some r) (hclosed : r.outer = [])
    (hbranches : r.level.branches = []) (hline : r.flags.multiLine = false)
    (hverbose : r.flags.verbose = false)
    (he : Pattern.ofText? ('^' :: (text ++ ['$'])) = some e) :
    ∃ es, e = Expr.concat (.test .textStart :: es ++ [.test .textEnd]) := by
  obtain ⟨whole, hwhole, hfinish⟩ := Option.bind_eq_some_iff.mp he
  rw [readTokens_textStart] at hwhole
  change readTokens (Reading.start.after Piece.textStart) (text ++ ['$']) = some whole at hwhole
  have hholds : (outermost r.level r.outer).branches = [] := by rw [hclosed]; exact hbranches
  have hmore : ∀ f, Closing f ['$'] := closing_of_signs (by simp) (by simp)
  have hlineAfter : (r.after Piece.textStart).flags.multiLine = false := hline
  rcases ((frame_after Piece.textStart).readTokens hmore hread hholds).2 with
    hafter | ⟨hcomment, -⟩
  · rw [hafter, readTokens_textEnd hlineAfter] at hwhole
    cases hwhole
    refine ⟨r.level.pieces.reverse.map (·.expr), ?_⟩
    have hexpr := Reading.expr_of_finish
      (by simpa [Reading.add, Level.add, Reading.after, hclosed, putFirst] using hbranches) hfinish
    rw [hexpr]
    simp [Reading.add, Level.add, Reading.after, hclosed, putFirst, Piece.textStart, Piece.textEnd]
  · rw [hverbose] at hcomment
    cases hcomment

end UrlRouting.Regex
