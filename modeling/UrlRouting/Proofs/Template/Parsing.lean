import UrlRouting.Template.Reader
import UrlRouting.Template.Written

/-!
# What the template reader keeps

At every moment of a pass, the finished segments and the text of the zone together
write what was read so far. Literal text that is held has no bracket, and the segment
before it is a block.

Main statement: `writtenOf_of_readTemplate`.
-/

namespace UrlRouting

/-- The text that a zone has taken in. What stands behind a second colon is
forgotten. -/
def Zone.text : Zone → List Char
  | .literal held => held.reverse
  | .typeName _ lead name => (lead.map Lead.char).toList ++ '[' :: name.reverse
  | .label _ lead name held =>
    (lead.map Lead.char).toList ++ '[' :: (name.toList ++ ':' :: held.reverse)
  | .overfull _ _ => []
  | .closed b => b.written

def Zone.isOverfull : Zone → Bool
  | .overfull _ _ => true
  | _ => false

/-- Text without brackets. -/
def NoBracket (text : List Char) : Prop :=
  '[' ∉ text ∧ ']' ∉ text

instance (text : List Char) : Decidable (NoBracket text) :=
  inferInstanceAs (Decidable (_ ∧ _))

theorem noBracket_cons_iff {c : Char} {text : List Char} :
    NoBracket (c :: text) ↔ (c ≠ '[' ∧ c ≠ ']') ∧ NoBracket text := by
  simp only [NoBracket, List.mem_cons, not_or, ne_comm]
  exact and_and_and_comm

theorem noBracket_append_iff {xs ys : List Char} :
    NoBracket (xs ++ ys) ↔ NoBracket xs ∧ NoBracket ys := by
  simp only [NoBracket, List.mem_append, not_or]
  exact and_and_and_comm

theorem NoBracket.ne_of_mem {text : List Char} (h : NoBracket text) {c : Char}
    (hc : c ∈ text) :
    c ≠ '[' ∧ c ≠ ']' :=
  ⟨fun heq => h.1 (heq ▸ hc), fun heq => h.2 (heq ▸ hc)⟩

/-- No literal stands directly before what comes next. -/
def AtBlock (done : List Segment) : Prop :=
  done = [] ∨ ∃ b rest, done = .block b :: rest

/-- What holds of a pass between two characters. -/
structure Scan.Sound (read : List Char) (s : Scan) : Prop where
  written : s.zone.isOverfull = false → writtenOf s.done.reverse ++ s.zone.text = read
  literal : ∀ held, s.zone = .literal held → NoBracket held ∧ AtBlock s.done
  closed : ∀ b, s.zone = .closed b → b.isOptional = false

/-! ## Literal text -/

theorem splitLead_eq {held kept : List Char} {lead : Option Lead}
    (h : splitLead held = (lead, kept)) : held = (lead.map Lead.char).toList ++ kept := by
  unfold splitLead at h
  split at h
  · cases h
    rfl
  · next c held =>
    split at h
    · next l hl =>
      cases h
      rw [Lead.ofChar?_eq_some_iff.mp hl]
      rfl
    · cases h
      rfl

theorem NoBracket.reverse {text : List Char} (h : NoBracket text) :
    NoBracket text.reverse :=
  ⟨fun hmem => h.1 (List.mem_reverse.mp hmem), fun hmem => h.2 (List.mem_reverse.mp hmem)⟩

theorem writtenOf_closeLiteral (held : List Char) (done : List Segment) :
    writtenOf (closeLiteral held done).reverse = writtenOf done.reverse ++ held.reverse := by
  unfold closeLiteral
  split
  · next h => simp [h]
  · simp [Segment.written]

theorem Scan.sound_stepLiteral {read held : List Char} {position : Nat}
    {done : List Segment}
    {c : Char} {s : Scan} (hat : AtBlock done) (hheld : NoBracket held)
    (hread : writtenOf done.reverse ++ held.reverse = read)
    (h : stepLiteral position done held c = .ok s) : s.Sound (read ++ [c]) := by
  unfold stepLiteral at h
  split at h
  · cases h
  · next hclose =>
    split at h
    · next hopen =>
      -- the last character may be the lead of the block that opens
      cases hsplit : splitLead held with
      | mk lead kept =>
        rw [hsplit] at h
        cases h
        have heq := splitLead_eq hsplit
        refine ⟨fun _ => ?_, nofun, nofun⟩
        show writtenOf (closeLiteral kept done).reverse ++
          ((lead.map Lead.char).toList ++ '[' :: []) = read ++ [c]
        rw [writtenOf_closeLiteral, ← hread, heq, hopen]
        cases lead <;> simp
    · next hopen =>
      cases h
      refine ⟨fun _ => ?_, ?_, nofun⟩
      · show writtenOf done.reverse ++ (c :: held).reverse = read ++ [c]
        rw [← hread]
        simp
      · intro text hzone
        cases hzone
        exact ⟨noBracket_cons_iff.mpr ⟨⟨hopen, hclose⟩, hheld⟩, hat⟩

/-- Text that a zone only holds leaves the pass in that zone. -/
theorem foldlM_step_hold (hold : List Char → Zone) {done : List Segment}
    {text : List Char} (hstep : ∀ (position : Nat) (held : List Char), ∀ c ∈ text,
      Scan.step ⟨position, done, hold held⟩ c =
        .ok ⟨position + c.utf8Size, done, hold (c :: held)⟩)
    (position : Nat) (held : List Char) :
    text.foldlM Scan.step ⟨position, done, hold held⟩ =
      .ok ⟨position + byteCount text, done, hold (text.reverse ++ held)⟩ := by
  induction text generalizing position held with
  | nil => rfl
  | cons c rest ih =>
    have hrest := ih fun position held c' hc' =>
      hstep position held c' (List.mem_cons_of_mem c hc')
    rw [List.foldlM_cons, hstep position held c (List.mem_cons_self ..)]
    show rest.foldlM Scan.step _ = _
    rw [hrest, byteCount_cons, List.reverse_cons, List.append_assoc, Nat.add_assoc]
    rfl

/-- Literal text is held as it stands. -/
theorem foldlM_step_literal {text : List Char} (htext : NoBracket text) (position : Nat)
    (done : List Segment) (held : List Char) :
    text.foldlM Scan.step ⟨position, done, .literal held⟩ =
      .ok ⟨position + byteCount text, done, .literal (text.reverse ++ held)⟩ := by
  refine foldlM_step_hold .literal ?_ position held
  intro position held c hc
  obtain ⟨hopen, hclose⟩ := htext.ne_of_mem hc
  show stepLiteral position done held c = _
  rw [stepLiteral, if_neg hclose, if_neg hopen]

/-! ## A whole pass -/

theorem Block.written_asOptional {b : Block} (h : b.isOptional = false) :
    b.asOptional.written = b.written ++ ['?'] := by
  unfold Block.written
  rw [h]
  simp [Block.asOptional, Block.inner]

/-- In a zone that is neither literal text nor a closed block, the text is all
there is to keep. -/
theorem Scan.sound_of_open {read : List Char} {position : Nat} {done : List Segment}
    {zone : Zone}
    (hwritten : zone.isOverfull = false → writtenOf done.reverse ++ zone.text = read)
    (hliteral : ∀ held, zone ≠ .literal held) (hclosed : ∀ b, zone ≠ .closed b) :
    Scan.Sound read ⟨position, done, zone⟩ where
  written := hwritten
  literal := fun held hzone => absurd hzone (hliteral held)
  closed := fun b hzone => absurd hzone (hclosed b)

/-- A closing bracket completes a block, so far without a question mark. -/
theorem Scan.sound_of_completeBlock {read : List Char} {position opened stop : Nat}
    {done : List Segment} {lead : Option Lead} {name : String} {label : Option String}
    (hwritten : writtenOf done.reverse ++ (completeBlock opened stop lead name label).written =
      read) :
    Scan.Sound read ⟨position, done, .closed (completeBlock opened stop lead name label)⟩ where
  written := fun _ => hwritten
  literal := nofun
  closed := by
    intro b hzone
    cases hzone
    rfl

theorem Scan.sound_step_closed {read : List Char} {position : Nat} {done : List Segment}
    {b : Block} {s' : Scan} {c : Char} (hs : Scan.Sound read ⟨position, done, .closed b⟩)
    (h : Scan.step ⟨position, done, .closed b⟩ c = .ok s') : s'.Sound (read ++ [c]) := by
  have hwritten : writtenOf done.reverse ++ b.written = read := hs.written rfl
  have hoptional := hs.closed b rfl
  unfold Scan.step at h
  dsimp only at h
  split at h
  · next hmark =>
    cases h
    refine ⟨fun _ => ?_, ?_, nofun⟩
    · show writtenOf (.block b.asOptional :: done).reverse ++ [] = read ++ [c]
      rw [← hwritten, hmark]
      simp [Segment.written, Block.written_asOptional hoptional]
    · intro held hzone
      cases hzone
      exact ⟨⟨List.not_mem_nil, List.not_mem_nil⟩, .inr ⟨_, _, rfl⟩⟩
  · -- no question mark: the block is finished and a literal begins
    refine sound_stepLiteral (.inr ⟨_, _, rfl⟩) ⟨List.not_mem_nil, List.not_mem_nil⟩ ?_ h
    rw [← hwritten]
    simp [Segment.written]

theorem Scan.sound_step_typeName {read name : List Char} {position opened : Nat}
    {done : List Segment} {lead : Option Lead} {s' : Scan} {c : Char}
    (hs : Scan.Sound read ⟨position, done, .typeName opened lead name⟩)
    (h : Scan.step ⟨position, done, .typeName opened lead name⟩ c = .ok s') :
    s'.Sound (read ++ [c]) := by
  have hwritten := hs.written rfl
  unfold Scan.step at h
  dsimp only at h
  split at h
  · cases h
  split at h
  · next hclose =>
    cases h
    apply sound_of_completeBlock
    rw [← hwritten, hclose]
    simp [Zone.text, completeBlock, Block.written, Block.inner]
  split at h
  · next hcolon =>
    cases h
    refine sound_of_open (fun _ => ?_) nofun nofun
    rw [← hwritten, hcolon]
    simp [Zone.text]
  · cases h
    refine sound_of_open (fun _ => ?_) nofun nofun
    rw [← hwritten]
    simp [Zone.text]

theorem Scan.sound_step_label {read held : List Char} {position opened : Nat}
    {done : List Segment} {lead : Option Lead} {name : String} {s' : Scan} {c : Char}
    (hs : Scan.Sound read ⟨position, done, .label opened lead name held⟩)
    (h : Scan.step ⟨position, done, .label opened lead name held⟩ c = .ok s') :
    s'.Sound (read ++ [c]) := by
  have hwritten := hs.written rfl
  unfold Scan.step at h
  dsimp only at h
  split at h
  · cases h
  split at h
  · next hclose =>
    cases h
    apply sound_of_completeBlock
    rw [← hwritten, hclose]
    simp [Zone.text, completeBlock, Block.written, Block.inner]
  split at h
  · -- a second colon: the text of the zone is forgotten
    cases h
    exact sound_of_open nofun nofun nofun
  · cases h
    refine sound_of_open (fun _ => ?_) nofun nofun
    rw [← hwritten]
    simp [Zone.text]

/-- One character keeps a pass sound, in whatever zone it stands. -/
theorem Scan.sound_step {read : List Char} {s s' : Scan} {c : Char} (hs : s.Sound read)
    (h : s.step c = .ok s') : s'.Sound (read ++ [c]) := by
  obtain ⟨position, done, zone⟩ := s
  cases zone with
  | literal held =>
    obtain ⟨hheld, hat⟩ := hs.literal held rfl
    exact sound_stepLiteral hat hheld (hs.written rfl) h
  | closed b => exact sound_step_closed hs h
  | typeName opened lead name => exact sound_step_typeName hs h
  | label opened lead name held => exact sound_step_label hs h
  | overfull opened second =>
    unfold Scan.step at h
    dsimp only at h
    split at h
    · cases h
    split at h
    · cases h
    · cases h
      exact sound_of_open nofun nofun nofun

/-- What every character keeps, a pass keeps. -/
theorem Scan.foldlM_induction {motive : List Char → Scan → Prop}
    (hstep : ∀ (read : List Char) (s : Scan) (c : Char) (s' : Scan),
      motive read s → s.step c = .ok s' → motive (read ++ [c]) s')
    {text : List Char} :
    ∀ {read : List Char} {s s' : Scan}, motive read s → text.foldlM Scan.step s = .ok s' →
      motive (read ++ text) s' := by
  induction text with
  | nil =>
    intro read s s' hs h
    cases h
    rw [List.append_nil]
    exact hs
  | cons c text ih =>
    intro read s s' hs h
    rw [List.foldlM_cons] at h
    cases hnext : s.step c with
    | error defect =>
      rw [hnext] at h
      cases h
    | ok next =>
      rw [hnext] at h
      have hend := ih (hstep read s c next hs hnext) h
      rwa [List.append_assoc, List.singleton_append] at hend

theorem Scan.sound_start : Scan.start.Sound [] where
  written := fun _ => rfl
  literal := by
    intro held hzone
    cases hzone
    exact ⟨⟨List.not_mem_nil, List.not_mem_nil⟩, .inl rfl⟩
  closed := nofun

/-- Segments are what a pass over the whole template ends with. -/
theorem exists_pass_of_readTemplate {template : String} {segments : List Segment}
    (h : readTemplate template = .ok segments) :
    ∃ s, template.toList.foldlM Scan.step Scan.start = .ok s ∧ s.finish = .ok segments := by
  unfold readTemplate readSegments at h
  cases hpass : template.toList.foldlM Scan.step Scan.start with
  | error defect =>
    rw [hpass] at h
    cases h
  | ok s =>
    rw [hpass] at h
    exact ⟨s, rfl, h⟩

/-- The segments of a template write it. -/
theorem writtenOf_of_readTemplate {template : String} {segments : List Segment}
    (h : readTemplate template = .ok segments) :
    writtenOf segments = template.toList := by
  obtain ⟨s, hpass, hfinish⟩ := exists_pass_of_readTemplate h
  have hs : s.Sound template.toList :=
    Scan.foldlM_induction (fun _ _ _ _ => Scan.sound_step) Scan.sound_start hpass
  obtain ⟨position, done, zone⟩ := s
  cases zone with
  | literal held =>
    cases hfinish
    rw [writtenOf_closeLiteral]
    exact hs.written rfl
  | closed b =>
    cases hfinish
    rw [writtenOf_reverse_cons]
    exact hs.written rfl
  | typeName => cases hfinish
  | label => cases hfinish
  | overfull => cases hfinish

end UrlRouting
