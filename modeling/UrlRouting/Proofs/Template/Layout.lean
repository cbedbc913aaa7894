import UrlRouting.Matcher
import UrlRouting.Proofs.Template.Cuts
import UrlRouting.Proofs.Template.Parsing

/-!
# Where the segments of a template lie

The segments that the reader finishes lie one behind the other from byte 0 on,
and each block carries the byte range of its written form. A `/` or `.` before a
bracket and a question mark behind one go to the block, never to a literal.
Between the brackets stands at most the one colon. So the text of a template
before its first bracket is its first literal and the lead of its first block.

Main statements: `laid_of_readTemplate`, `exists_block_of_readTemplate`.
-/

namespace UrlRouting

/-- Text that can stand before or behind the colon of a block. -/
structure Unmarked (text : List Char) : Prop where
  noBracket : NoBracket text
  noColon : ':' ∉ text

instance (text : List Char) : Decidable (Unmarked text) :=
  decidable_of_iff (NoBracket text ∧ ':' ∉ text)
    ⟨fun h => ⟨h.1, h.2⟩, fun h => ⟨h.noBracket, h.noColon⟩⟩

/-- The last block takes a question mark that comes next. -/
def AwaitsMark (done : List Segment) : Prop :=
  ∃ b rest, done = .block b :: rest ∧ b.isOptional = false

/-- A bracket that comes next takes the last character as its lead. -/
def OffersLead (done : List Segment) : Prop :=
  ∃ (text : String) (rest : List Segment) (before : List Char) (l : Lead),
    done = .literal text :: rest ∧ text.toList = before ++ [l.char]

/-- Segments, the last one first, that lie one behind the other up to a byte offset. -/
inductive Laid : List Segment → Nat → Prop
  | nil : Laid [] 0
  | literal {text : String} {done : List Segment} {stop : Nat} (hdone : Laid done stop)
      (hne : text.toList ≠ []) (hbracket : NoBracket text.toList) (hat : AtBlock done)
      (hmark : AwaitsMark done → text.toList.head? ≠ some '?') :
      Laid (.literal text :: done) (stop + byteCount text.toList)
  | block {b : Block} {done : List Segment} (hdone : Laid done b.start)
      (hstop : b.stop = b.start + byteCount b.written) (htype : Unmarked b.typeName.toList)
      (hlabel : ∀ label, b.label = some label → Unmarked label.toList)
      (hlead : b.lead = none → ¬ OffersLead done) :
      Laid (.block b :: done) b.stop

/-- The offset is that of the text that the segments write. -/
theorem Laid.stop_eq {done : List Segment} {stop : Nat} (h : Laid done stop) :
    stop = byteCount (writtenOf done.reverse) := by
  induction h with
  | nil => rfl
  | literal _ _ _ _ _ ih =>
    rw [writtenOf_reverse_cons, byteCount_append, ← ih]
    rfl
  | block _ hstop _ _ _ ih =>
    rw [hstop, writtenOf_reverse_cons, byteCount_append, ← ih]
    rfl

/-- Segments that are laid were laid before the later ones came. -/
theorem Laid.of_append {later earlier : List Segment} {stop : Nat}
    (h : Laid (later ++ earlier) stop) : ∃ stop', Laid earlier stop' := by
  induction later generalizing stop with
  | nil => exact ⟨stop, h⟩
  | cons s later ih =>
    rw [List.cons_append] at h
    cases h with
    | literal hdone => exact ih hdone
    | block hdone => exact ih hdone

/-! ## One character -/

/-- An opening bracket at byte `opened`, with its lead, stands behind the segments. -/
structure OpensBehind (done : List Segment) (opened : Nat) (lead : Option Lead) :
    Prop where
  width_le : Lead.width lead ≤ opened
  laid : Laid done (opened - Lead.width lead)
  lead : lead = none → ¬ OffersLead done

/-- Where the text of a zone lies that ends at byte `position`. Nothing is kept
of a block with a second colon. -/
def Zone.Placed (done : List Segment) (position : Nat) : Zone → Prop
  | .literal held =>
    (∃ start, Laid done start ∧ position = start + byteCount held) ∧
      (AwaitsMark done → ∃ first rest, held.reverse = first :: rest ∧ first ≠ '?')
  | .typeName opened lead name =>
    OpensBehind done opened lead ∧ Unmarked name ∧ position = opened + 1 + byteCount name
  | .label opened lead name held =>
    OpensBehind done opened lead ∧ Unmarked name.toList ∧ Unmarked held ∧
      position = opened + 1 + byteCount name.toList + 1 + byteCount held
  | .overfull _ _ => True
  | .closed b => Laid (.block b :: done) position

def Scan.Placed (s : Scan) : Prop :=
  s.zone.Placed s.done s.position

theorem Unmarked.nil : Unmarked [] :=
  ⟨⟨List.not_mem_nil, List.not_mem_nil⟩, List.not_mem_nil⟩

theorem Unmarked.cons {c : Char} {text : List Char} (h : Unmarked text) (hopen : c ≠ '[')
    (hclose : c ≠ ']') (hcolon : c ≠ ':') : Unmarked (c :: text) where
  noBracket := noBracket_cons_iff.mpr ⟨⟨hopen, hclose⟩, h.noBracket⟩
  noColon := by simp [h.noColon, Ne.symm hcolon]

theorem Unmarked.reverse {text : List Char} (h : Unmarked text) :
    Unmarked (String.ofList text.reverse).toList := by
  rw [String.toList_ofList]
  exact ⟨h.noBracket.reverse, fun hmem => h.noColon (List.mem_reverse.mp hmem)⟩

theorem not_offersLead_of_atBlock {done : List Segment} (h : AtBlock done) :
    ¬ OffersLead done := by
  rintro ⟨text, rest, before, l, rfl, -⟩
  rcases h with heq | ⟨b, rest, heq⟩
  · cases heq
  · cases heq

theorem laid_closeLiteral {held : List Char} {done : List Segment} {stop : Nat}
    (hdone : Laid done stop) (hheld : NoBracket held) (hat : AtBlock done)
    (hmark : AwaitsMark done → held.reverse.head? ≠ some '?') :
    Laid (closeLiteral held done) (stop + byteCount held) := by
  unfold closeLiteral
  split
  · next h =>
    rw [h]
    exact hdone
  · next hne =>
    have htext : (String.ofList held.reverse).toList = held.reverse := String.toList_ofList
    have hlaid : Laid (.literal (String.ofList held.reverse) :: done)
        (stop + byteCount (String.ofList held.reverse).toList) := by
      apply Laid.literal hdone
      · simpa using hne
      · rw [htext]
        exact hheld.reverse
      · exact hat
      · rw [htext]
        exact hmark
    rwa [htext, byteCount_reverse] at hlaid

/-- Text that is left without a lead offers none. -/
theorem not_offersLead_closeLiteral {held kept : List Char} {done : List Segment}
    (hat : AtBlock done) (hsplit : splitLead held = (none, kept)) :
    ¬ OffersLead (closeLiteral kept done) := by
  unfold closeLiteral
  split
  · exact not_offersLead_of_atBlock hat
  · rintro ⟨text, rest, before, l, heq, htext⟩
    cases heq
    rw [String.toList_ofList, List.reverse_eq_append_iff] at htext
    -- the last character of the text is the one that was asked for a lead
    have hheld := splitLead_eq hsplit
    rw [htext] at hheld
    simp only [Option.map_none, Option.toList_none, List.nil_append, List.reverse_singleton,
      List.singleton_append] at hheld
    rw [hheld, splitLead, Lead.ofChar?_char] at hsplit
    cases hsplit

theorem byteCount_leadText (lead : Option Lead) :
    byteCount (lead.map Lead.char).toList = Lead.width lead := by
  rcases lead with - | - | - <;> rfl

/-- An opening bracket closes the literal text before it, less its lead. -/
theorem opensBehind_of_splitLead {held kept : List Char} {done : List Segment}
    {start : Nat}
    {lead : Option Lead} (hdone : Laid done start) (hheld : NoBracket held)
    (hat : AtBlock done)
    (hmark : AwaitsMark done → ∃ first rest, held.reverse ++ ['['] = first :: rest ∧ first ≠ '?')
    (hsplit : splitLead held = (lead, kept)) :
    OpensBehind (closeLiteral kept done) (start + byteCount held) lead := by
  have heq := splitLead_eq hsplit
  have hkept : NoBracket kept := by
    rw [heq] at hheld
    exact (noBracket_append_iff.mp hheld).2
  have hcount : byteCount held = Lead.width lead + byteCount kept := by
    rw [heq, byteCount_append, byteCount_leadText]
  refine ⟨by omega, ?_, ?_⟩
  · have hoffset : start + byteCount held - Lead.width lead = start + byteCount kept := by omega
    rw [hoffset]
    refine laid_closeLiteral hdone hkept hat fun hawaits => ?_
    obtain ⟨first, rest, hfirst, hne⟩ := hmark hawaits
    rw [heq, List.reverse_append, List.append_assoc] at hfirst
    cases hrev : kept.reverse with
    | nil => exact nofun
    | cons c more =>
      rw [hrev] at hfirst
      obtain rfl := (List.cons.inj hfirst).1
      intro hsome
      exact hne (Option.some.inj hsome)
  · rintro rfl
    exact not_offersLead_closeLiteral hat hsplit

theorem Scan.placed_stepLiteral {held : List Char} {position start : Nat}
    {done : List Segment}
    {c : Char} {s : Scan} (hdone : Laid done start)
    (hposition : position = start + byteCount held)
    (hheld : NoBracket held) (hat : AtBlock done)
    (hmark : AwaitsMark done → ∃ first rest, held.reverse ++ [c] = first :: rest ∧ first ≠ '?')
    (h : stepLiteral position done held c = .ok s) : s.Placed := by
  unfold stepLiteral at h
  split at h
  · cases h
  split at h
  · next hopen =>
    subst hopen hposition
    cases hsplit : splitLead held with
    | mk lead kept =>
      rw [hsplit] at h
      cases h
      exact ⟨opensBehind_of_splitLead hdone hheld hat hmark hsplit, .nil, rfl⟩
  · cases h
    refine ⟨⟨start, hdone, ?_⟩, ?_⟩
    · show position + c.utf8Size = start + (c.utf8Size + byteCount held)
      omega
    · rwa [List.reverse_cons]

theorem Block.byteCount_written {b : Block} (h : b.isOptional = false) :
    byteCount b.written = Lead.width b.lead + 1 + byteCount b.inner + 1 := by
  have hopen : ('[' : Char).utf8Size = 1 := rfl
  have hclose : (']' : Char).utf8Size = 1 := rfl
  unfold Block.written
  rw [h]
  simp [byteCount_leadText, hopen, hclose]
  omega

/-- A closing bracket lays the block behind the segments. -/
theorem laid_completeBlock {opened position : Nat} {done : List Segment}
    {lead : Option Lead}
    {name : String} {label : Option String} (hopens : OpensBehind done opened lead)
    (htype : Unmarked name.toList)
    (hlabel : ∀ text, label = some text → Unmarked text.toList)
    (hposition : position =
      opened + 1 + byteCount (completeBlock opened position lead name label).inner) :
    Laid (.block (completeBlock opened position lead name label) :: done) (position + 1) := by
  refine .block hopens.laid ?_ htype hlabel hopens.lead
  have hwidth := hopens.width_le
  rw [Block.byteCount_written rfl]
  show position + 1 = opened - Lead.width lead +
    (Lead.width lead + 1 + byteCount (completeBlock opened position lead name label).inner + 1)
  omega

theorem Scan.placed_step_closed {read : List Char} {position : Nat} {done : List Segment}
    {b : Block} {s' : Scan} {c : Char} (hs : Scan.Sound read ⟨position, done, .closed b⟩)
    (hp : Scan.Placed ⟨position, done, .closed b⟩)
    (h : Scan.step ⟨position, done, .closed b⟩ c = .ok s') : s'.Placed := by
  have hoptional := hs.closed b rfl
  have hlaid : Laid (.block b :: done) position := hp
  unfold Scan.step at h
  dsimp only at h
  split at h
  · next hmark =>
    cases h
    cases hlaid with
    | block hdone hstop htype hlabel hlead =>
      have hmarked : b.asOptional.stop = b.asOptional.start + byteCount b.asOptional.written := by
        rw [Block.written_asOptional hoptional, byteCount_append]
        show b.stop + 1 = b.start + (byteCount b.written + 1)
        omega
      refine ⟨⟨_, .block (b := b.asOptional) hdone hmarked htype hlabel hlead, rfl⟩, ?_⟩
      rintro ⟨b', rest, heq, hrequired⟩
      cases heq
      cases hrequired
  · next hmark =>
    -- the literal text that begins here does not begin with the question mark
    exact placed_stepLiteral hlaid rfl ⟨List.not_mem_nil, List.not_mem_nil⟩ (.inr ⟨_, _, rfl⟩)
      (fun _ => ⟨c, [], rfl, hmark⟩) h

theorem Scan.placed_step_typeName {position opened : Nat} {done : List Segment}
    {lead : Option Lead} {name : List Char} {s' : Scan} {c : Char}
    (hp : Scan.Placed ⟨position, done, .typeName opened lead name⟩)
    (h : Scan.step ⟨position, done, .typeName opened lead name⟩ c = .ok s') :
    s'.Placed := by
  obtain ⟨hopens, hname, hposition⟩ := hp
  change position = opened + 1 + byteCount name at hposition
  unfold Scan.step at h
  dsimp only at h
  split at h
  · cases h
  split at h
  · cases h
    refine laid_completeBlock hopens hname.reverse nofun ?_
    simp [completeBlock, Block.inner, hposition]
  split at h
  · cases h
    refine ⟨hopens, hname.reverse, .nil, ?_⟩
    simp [hposition]
  · next hopen hclose hcolon =>
    cases h
    refine ⟨hopens, hname.cons hopen hclose hcolon, ?_⟩
    show position + c.utf8Size = opened + 1 + (c.utf8Size + byteCount name)
    omega

theorem Scan.placed_step_label {position opened : Nat} {done : List Segment}
    {lead : Option Lead} {name : String} {held : List Char} {s' : Scan} {c : Char}
    (hp : Scan.Placed ⟨position, done, .label opened lead name held⟩)
    (h : Scan.step ⟨position, done, .label opened lead name held⟩ c = .ok s') :
    s'.Placed := by
  obtain ⟨hopens, hname, hheld, hposition⟩ := hp
  change position = opened + 1 + byteCount name.toList + 1 + byteCount held at hposition
  unfold Scan.step at h
  dsimp only at h
  split at h
  · cases h
  split at h
  · cases h
    refine laid_completeBlock hopens hname ?_ ?_
    · intro text htext
      cases htext
      exact hheld.reverse
    · have hcolon : (':' : Char).utf8Size = 1 := rfl
      simp [completeBlock, Block.inner, hposition, hcolon]
      omega
  split at h
  · cases h
    trivial
  · next hopen hclose hcolon =>
    cases h
    refine ⟨hopens, hname, hheld.cons hopen hclose hcolon, ?_⟩
    show position + c.utf8Size =
      opened + 1 + byteCount name.toList + 1 + (c.utf8Size + byteCount held)
    omega

/-- One character keeps everything in its place. -/
theorem Scan.placed_step {read : List Char} {s s' : Scan} {c : Char} (hs : s.Sound read)
    (hp : s.Placed) (h : s.step c = .ok s') : s'.Placed := by
  obtain ⟨position, done, zone⟩ := s
  cases zone with
  | literal held =>
    obtain ⟨⟨start, hdone, hposition⟩, hmark⟩ := hp
    obtain ⟨hheld, hat⟩ := hs.literal held rfl
    refine placed_stepLiteral hdone hposition hheld hat (fun hawaits => ?_) h
    obtain ⟨first, rest, hfirst, hne⟩ := hmark hawaits
    exact ⟨first, rest ++ [c], by rw [hfirst, List.cons_append], hne⟩
  | typeName opened lead name => exact placed_step_typeName hp h
  | label opened lead name held => exact placed_step_label hp h
  | overfull opened second =>
    unfold Scan.step at h
    dsimp only at h
    split at h
    · cases h
    split at h
    · cases h
    · cases h
      trivial
  | closed b => exact placed_step_closed hs hp h

/-! ## A whole pass -/

theorem Scan.placed_start : Scan.start.Placed :=
  ⟨⟨0, .nil, rfl⟩, fun ⟨_, _, h, _⟩ => nomatch h⟩

/-- The segments of a template lie one behind the other, up to its end. -/
theorem laid_of_readTemplate {template : String} {segments : List Segment}
    (h : readTemplate template = .ok segments) :
    Laid segments.reverse (byteCount template.toList) := by
  obtain ⟨s, hpass, hfinish⟩ := exists_pass_of_readTemplate h
  obtain ⟨hs, hp⟩ : s.Sound template.toList ∧ s.Placed :=
    Scan.foldlM_induction (motive := fun read s => s.Sound read ∧ s.Placed)
      (fun _ _ _ _ hs hstep => ⟨Scan.sound_step hs.1 hstep, Scan.placed_step hs.1 hs.2 hstep⟩)
      ⟨Scan.sound_start, Scan.placed_start⟩ hpass
  obtain ⟨stop, hlaid⟩ : ∃ stop, Laid segments.reverse stop := by
    obtain ⟨position, done, zone⟩ := s
    cases zone with
    | literal held =>
      cases hfinish
      rw [List.reverse_reverse]
      obtain ⟨⟨start, hdone, -⟩, hmark⟩ := hp
      obtain ⟨hheld, hat⟩ := hs.literal held rfl
      refine ⟨_, laid_closeLiteral hdone hheld hat fun hawaits => ?_⟩
      obtain ⟨first, rest, hfirst, hne⟩ := hmark hawaits
      rw [hfirst]
      intro hsome
      exact hne (Option.some.inj hsome)
    | closed b =>
      cases hfinish
      rw [List.reverse_reverse]
      exact ⟨_, hp⟩
    | typeName => cases hfinish
    | label => cases hfinish
    | overfull => cases hfinish
  have hstop := hlaid.stop_eq
  rw [List.reverse_reverse, writtenOf_of_readTemplate h] at hstop
  rwa [hstop] at hlaid

/-! ## Before the first bracket -/

/-- A text as a segment, unless it is empty. -/
def literalSegments (text : List Char) : List Segment :=
  if text = [] then [] else [.literal (String.ofList text)]

/-- The segments are at most one literal, or begin with a block behind at most one. -/
theorem Laid.shape {done : List Segment} {stop : Nat} (h : Laid done stop) :
    ∃ before, NoBracket before ∧ (done.reverse = literalSegments before ∨
      ∃ b rest, done.reverse = literalSegments before ++ .block b :: rest) := by
  induction h with
  | nil => exact ⟨[], ⟨List.not_mem_nil, List.not_mem_nil⟩, .inl rfl⟩
  | @block b done _ _ _ _ _ ih =>
    obtain ⟨before, hbefore, heq | ⟨b', rest, heq⟩⟩ := ih
    · exact ⟨before, hbefore, .inr ⟨b, [], by rw [List.reverse_cons, heq]⟩⟩
    · exact ⟨before, hbefore, .inr ⟨b', rest ++ [.block b], by rw [List.reverse_cons, heq]; simp⟩⟩
  | @literal text done _ _ hne hbracket hat _ ih =>
    rcases hat with rfl | ⟨b, rest, rfl⟩
    · refine ⟨text.toList, hbracket, .inl ?_⟩
      rw [literalSegments, if_neg hne, String.ofList_toList]
      rfl
    · obtain ⟨before, hbefore, heq | ⟨b', rest', heq⟩⟩ := ih
      · -- a block was finished, so there is more than a literal
        have hmem : Segment.block b ∈ literalSegments before := by
          rw [← heq]
          simp
        unfold literalSegments at hmem
        split at hmem <;> simp at hmem
      · refine ⟨before, hbefore, .inr ⟨b', rest' ++ [.literal text], ?_⟩⟩
        rw [List.reverse_cons, heq, List.append_assoc, List.cons_append]

theorem writtenOf_literalSegments (text : List Char) :
    writtenOf (literalSegments text) = text := by
  unfold literalSegments
  split
  · next h => rw [h]; rfl
  · simp [Segment.written]

theorem literalStart_append {start : List Char} (h : '[' ∉ start) (rest : List Char) :
    literalStart (start ++ '[' :: rest) = start := by
  unfold literalStart
  rw [List.takeWhile_append_of_pos, List.takeWhile_cons_of_neg (by simp), List.append_nil]
  intro c hc
  rw [decide_eq_true_eq]
  rintro rfl
  exact h hc

theorem Block.bracket_not_mem_leadText (b : Block) : '[' ∉ b.leadText := by
  unfold Block.leadText
  rcases b.lead with - | - | - <;> decide

/-- A template with a bracket has a first block. The text before the bracket is the
literal before the block and the lead of the block. -/
theorem exists_block_of_readTemplate {template : String} {segments : List Segment}
    (hbracket : hasBracket template = true) (h : readTemplate template = .ok segments) :
    ∃ before b rest, segments = literalSegments before ++ .block b :: rest ∧
      literalStart template.toList = before ++ b.leadText := by
  have hwritten := writtenOf_of_readTemplate h
  obtain ⟨before, hbefore, hshape⟩ := (laid_of_readTemplate h).shape
  rw [List.reverse_reverse] at hshape
  rcases hshape with heq | ⟨b, rest, heq⟩
  · rw [heq, writtenOf_literalSegments] at hwritten
    rw [hasBracket, ← hwritten, List.contains_iff_mem] at hbracket
    exact absurd hbracket hbefore.1
  · refine ⟨before, b, rest, heq, ?_⟩
    have hopen : template.toList = before ++ b.leadText ++ '[' ::
        (b.inner ++ (if b.isOptional then [']', '?'] else [']']) ++ writtenOf rest) := by
      rw [← hwritten, heq, writtenOf_append, writtenOf_literalSegments, writtenOf_cons]
      simp [Segment.written, Block.written, Block.leadText]
    rw [hopen, literalStart_append]
    rw [List.mem_append, not_or]
    exact ⟨hbefore.1, b.bracket_not_mem_leadText⟩

end UrlRouting
