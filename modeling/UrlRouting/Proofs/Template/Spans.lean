import Mathlib.Data.String.Basic
import UrlRouting.Proofs.Template.Layout

/-!
# The spans of a template

Reading a template loses nothing. The spans of the blocks lie in the template,
one behind the other and between characters, the literals are the gaps between
them, and the texts of all segments join to the template.

Main statement: `covers_of_readTemplate`.
-/

namespace UrlRouting

/-- The text of a template between two byte offsets. -/
def byteSlice (template : String) (start stop : Nat) : String :=
  String.Pos.Raw.extract template ⟨start⟩ ⟨stop⟩

/-- What stands in the template where a block was read, its lead and its question mark
included. -/
def Block.sourceText (template : String) (b : Block) : String :=
  byteSlice template b.start b.stop

def Segment.sourceText (template : String) : Segment → String
  | .literal text => text
  | .block b => b.sourceText template

/-- Where the last block ends, or where the template begins. -/
def endOfBlocks (segments : List Segment) : Nat :=
  ((blocksOf segments).getLast?.map Block.stop).getD 0

/-- Where the first block begins, or where the template ends. -/
def startOfBlocks (template : String) (segments : List Segment) : Nat :=
  ((blocksOf segments).head?.map Block.start).getD template.utf8ByteSize

/-- Segments that account for every byte of a template. -/
structure Covers (template : String) (segments : List Segment) : Prop where
  joined : String.join (segments.map (Segment.sourceText template)) = template
  inRange : ∀ b ∈ blocksOf segments, b.start < b.stop ∧ b.stop ≤ template.utf8ByteSize
  onBoundaries : ∀ b ∈ blocksOf segments,
    String.Pos.Raw.IsValid template ⟨b.start⟩ ∧ String.Pos.Raw.IsValid template ⟨b.stop⟩
  ordered : (blocksOf segments).Pairwise fun a b => a.stop ≤ b.start
  /-- A literal is the gap between the spans next to it. -/
  gaps : ∀ before text after, segments = before ++ .literal text :: after →
    text = byteSlice template (endOfBlocks before) (startOfBlocks template after)
  /-- A span reads as the block is written. -/
  reads : ∀ b ∈ blocksOf segments, b.sourceText template = String.ofList b.written
  unmarked : ∀ b ∈ blocksOf segments, Unmarked b.typeName.toList ∧
    ∀ label, b.label = some label → Unmarked label.toList
  /-- The name of a block is its label, unless that is empty. -/
  names : ∀ b ∈ blocksOf segments, ∀ name,
    b.name? = some name ↔ b.label = some name ∧ name ≠ ""
  literals : ∀ text, .literal text ∈ segments → text ≠ "" ∧ NoBracket text.toList
  apart : ∀ text text', ¬ [.literal text, .literal text'] <:+: segments
  /-- A slash or dot before a bracket is the lead of the block that opens there. -/
  leads : ∀ (before : List Char) (l : Lead) (after : List Char),
    template.toList = before ++ l.char :: '[' :: after →
      ∃ b ∈ blocksOf segments, b.lead = some l ∧ b.start = byteCount before
  /-- A question mark behind a bracket makes the block that closes there optional. -/
  marks : ∀ before after : List Char, template.toList = before ++ ']' :: '?' :: after →
    ∃ b ∈ blocksOf segments, b.isOptional = true ∧ b.stop = byteCount before + 2

/-! ## Slices -/

section

variable {template : String} {before middle after : List Char}

theorem byteCount_eq_utf8Len (cs : List Char) : byteCount cs = String.utf8Len cs := by
  induction cs with
  | nil => rfl
  | cons c rest ih => rw [byteCount_cons, String.utf8Len_cons, ih, Nat.add_comm]

theorem byteCount_toList (text : String) : byteCount text.toList = text.utf8ByteSize := by
  rw [byteCount_eq_utf8Len, String.utf8Len_toList]

theorem byteSlice_eq (h : template.toList = before ++ middle ++ after) :
    byteSlice template (byteCount before) (byteCount before + byteCount middle) =
      String.ofList middle := by
  have htemplate : template = String.ofList (before ++ middle ++ after) := by
    rw [← h, String.ofList_toList]
  rw [byteSlice, htemplate, byteCount_eq_utf8Len, byteCount_eq_utf8Len]
  exact String.extract_of_valid before middle after

theorem isValid_byteCount (h : template.toList = before ++ after) :
    String.Pos.Raw.IsValid template ⟨byteCount before⟩ := by
  rw [String.Pos.Raw.isValid_iff_exists_append]
  refine ⟨String.ofList before, String.ofList after, ?_, ?_⟩
  · rw [← String.ofList_append, ← h, String.ofList_toList]
  · rw [String.rawEndPos_ofList, byteCount_eq_utf8Len]

end

/-! ## Where a bracket stands -/

/-- A character that no literal holds, and every block writes exactly once, finds its
block. -/
theorem exists_block_of_writtenOf {x : Char} (head tail : Block → List Char)
    {segments : List Segment} {before after : List Char}
    (hliteral : ∀ text, .literal text ∈ segments → x ∉ text.toList)
    (hblock : ∀ b, .block b ∈ segments →
      b.written = head b ++ x :: tail b ∧ x ∉ head b ∧ x ∉ tail b)
    (h : writtenOf segments = before ++ x :: after) :
    ∃ earlier b later, segments = earlier ++ .block b :: later ∧
      before = writtenOf earlier ++ head b ∧ after = tail b ++ writtenOf later := by
  induction segments generalizing before with
  | nil =>
    rw [writtenOf_nil] at h
    exact absurd h.symm (by simp)
  | cons s rest ih =>
    rw [writtenOf_cons] at h
    -- the character stands behind the first segment or in it
    have hcases : (∃ more, before = s.written ++ more ∧ writtenOf rest = more ++ x :: after) ∨
        ∃ more, s.written = before ++ x :: more ∧ after = more ++ writtenOf rest := by
      rcases List.append_eq_append_iff.mp h with ⟨more, hbefore, hrest⟩ | ⟨more, hs, hafter⟩
      · exact .inl ⟨more, hbefore, hrest⟩
      · cases more with
        | nil => exact .inl ⟨[], by simpa using hs.symm, hafter.symm⟩
        | cons c more =>
          obtain ⟨rfl, rfl⟩ := List.cons.inj hafter
          exact .inr ⟨more, hs, rfl⟩
    rcases hcases with ⟨more, rfl, hrest⟩ | ⟨more, hs, rfl⟩
    · obtain ⟨earlier, b, later, rfl, rfl, rfl⟩ :=
        ih (fun text hmem => hliteral text (List.mem_cons_of_mem _ hmem))
          (fun b hmem => hblock b (List.mem_cons_of_mem _ hmem)) hrest
      exact ⟨s :: earlier, b, later, rfl, by simp, rfl⟩
    · cases s with
      | literal text =>
        have hmem : x ∈ text.toList := by
          show x ∈ Segment.written (.literal text)
          rw [hs]
          simp
        exact absurd hmem (hliteral text (List.mem_cons_self ..))
      | block b =>
        obtain ⟨hwritten, hhead, htail⟩ := hblock b (List.mem_cons_self ..)
        have heq : before ++ x :: more = head b ++ x :: tail b := hs.symm.trans hwritten
        obtain ⟨rfl, -, rfl⟩ := (List.append_cons_inj_of_notMem hhead htail).mp heq.symm
        exact ⟨[], b, rest, rfl, rfl, rfl⟩

/-! ## One segment in its place -/

section

variable {segments before after : List Segment} {stop : Nat}

theorem Laid.upTo {s : Segment} (h : Laid segments.reverse stop)
    (hsplit : segments = before ++ s :: after) :
    ∃ stop', Laid (s :: before.reverse) stop' := by
  rw [hsplit, List.reverse_append, List.reverse_cons, List.append_assoc] at h
  exact h.of_append

theorem Laid.upTo_mem {s : Segment} (h : Laid segments.reverse stop)
    (hmem : s ∈ segments) :
    ∃ before after, segments = before ++ s :: after ∧
      ∃ stop', Laid (s :: before.reverse) stop' := by
  obtain ⟨before, after, hsplit⟩ := List.append_of_mem hmem
  exact ⟨before, after, hsplit, h.upTo hsplit⟩

/-- The span of a block is the place of what it writes. -/
theorem Laid.span_eq {b : Block} (h : Laid segments.reverse stop)
    (hsplit : segments = before ++ .block b :: after) :
    b.start = byteCount (writtenOf before) ∧ b.stop = b.start + byteCount b.written := by
  obtain ⟨stop', hlaid⟩ := h.upTo hsplit
  cases hlaid with
  | block hdone hstop =>
    have hstart := hdone.stop_eq
    rw [List.reverse_reverse] at hstart
    exact ⟨hstart, hstop⟩

theorem Laid.unmarked {b : Block} (h : Laid segments.reverse stop)
    (hb : .block b ∈ segments) :
    Unmarked b.typeName.toList ∧ ∀ label, b.label = some label → Unmarked label.toList := by
  obtain ⟨earlier, later, -, stop', hlaid⟩ := h.upTo_mem hb
  cases hlaid with
  | block _ _ htype hlabel => exact ⟨htype, hlabel⟩

theorem Laid.noBracket {text : String} (h : Laid segments.reverse stop)
    (htext : .literal text ∈ segments) : text.toList ≠ [] ∧ NoBracket text.toList := by
  obtain ⟨earlier, later, -, stop', hlaid⟩ := h.upTo_mem htext
  cases hlaid with
  | literal _ hne hbracket => exact ⟨hne, hbracket⟩

/-- What a block writes behind its closing bracket. -/
def Block.mark (b : Block) : List Char :=
  if b.isOptional then ['?'] else []

theorem Block.written_eq (b : Block) :
    b.written = b.leadText ++ '[' :: (b.inner ++ ']' :: b.mark) := by
  unfold Block.written Block.leadText Block.mark
  cases b.isOptional <;> simp

theorem Block.bracket_not_mem_mark (b : Block) : '[' ∉ b.mark ∧ ']' ∉ b.mark := by
  unfold Block.mark
  cases b.isOptional <;> decide

theorem Block.close_not_mem_leadText (b : Block) : ']' ∉ b.leadText := by
  unfold Block.leadText
  rcases b.lead with - | - | - <;> decide

theorem noBracket_inner {b : Block} (htype : Unmarked b.typeName.toList)
    (hlabel : ∀ label, b.label = some label → Unmarked label.toList) :
    NoBracket b.inner := by
  unfold Block.inner
  cases hb : b.label with
  | none =>
    rw [List.append_nil]
    exact htype.noBracket
  | some label =>
    have hopen := (hlabel label hb).noBracket.1
    have hclose := (hlabel label hb).noBracket.2
    exact ⟨by simp [htype.noBracket.1, hopen], by simp [htype.noBracket.2, hclose]⟩

/-- Every opening bracket opens a block. -/
theorem Laid.exists_of_open {x y : List Char} (h : Laid segments.reverse stop)
    (hwritten : writtenOf segments = x ++ '[' :: y) :
    ∃ earlier b later, segments = earlier ++ .block b :: later ∧
      x = writtenOf earlier ++ b.leadText ∧
      y = b.inner ++ ']' :: b.mark ++ writtenOf later := by
  refine exists_block_of_writtenOf Block.leadText (fun b => b.inner ++ ']' :: b.mark) ?_ ?_
    hwritten
  · intro text htext
    exact (h.noBracket htext).2.1
  · intro b hb
    obtain ⟨htype, hlabel⟩ := h.unmarked hb
    refine ⟨b.written_eq, b.bracket_not_mem_leadText, ?_⟩
    simp [(noBracket_inner htype hlabel).1, b.bracket_not_mem_mark.1]

/-- Every closing bracket closes a block. -/
theorem Laid.exists_of_close {x y : List Char} (h : Laid segments.reverse stop)
    (hwritten : writtenOf segments = x ++ ']' :: y) :
    ∃ earlier b later, segments = earlier ++ .block b :: later ∧
      x = writtenOf earlier ++ (b.leadText ++ '[' :: b.inner) ∧
      y = b.mark ++ writtenOf later := by
  refine exists_block_of_writtenOf (fun b => b.leadText ++ '[' :: b.inner) Block.mark ?_ ?_
    hwritten
  · intro text htext
    exact (h.noBracket htext).2.2
  · intro b hb
    obtain ⟨htype, hlabel⟩ := h.unmarked hb
    refine ⟨?_, ?_, b.bracket_not_mem_mark.2⟩
    · rw [b.written_eq]
      simp
    · simp [b.close_not_mem_leadText, (noBracket_inner htype hlabel).2]

end

/-! ## What goes to a block -/

theorem Lead.char_injective {l l' : Lead} (h : l.char = l'.char) : l = l' := by
  have heq := congrArg Lead.ofChar? h
  rw [Lead.ofChar?_char, Lead.ofChar?_char] at heq
  exact Option.some.inj heq

theorem Block.getLast?_written (b : Block) :
    b.written.getLast? = some ']' ∨ b.written.getLast? = some '?' := by
  unfold Block.written
  rw [List.getLast?_append]
  cases b.isOptional
  · exact .inl rfl
  · exact .inr rfl

/-- Only a literal ends in a slash or a dot. -/
theorem Laid.offersLead {done : List Segment} {stop : Nat} {x : List Char} {l : Lead}
    (h : Laid done stop) (hwritten : writtenOf done.reverse = x ++ [l.char]) :
    OffersLead done := by
  cases h with
  | nil => exact absurd hwritten.symm (by simp)
  | @literal text done _ _ hne =>
    obtain ⟨init, last, htext⟩ := (List.eq_nil_or_concat' text.toList).resolve_left hne
    have hends : writtenOf done.reverse ++ init ++ [last] = x ++ [l.char] := by
      rw [List.append_assoc, ← htext, ← hwritten, writtenOf_reverse_cons]
      rfl
    obtain ⟨-, hlast⟩ := List.append_inj' hends rfl
    obtain rfl := (List.cons.inj hlast).1
    exact ⟨text, done, init, l, rfl, htext⟩
  | @block b done =>
    have hends : writtenOf done.reverse ++ b.written = x ++ [l.char] := by
      rw [← hwritten, writtenOf_reverse_cons]
      rfl
    have hlast := congrArg List.getLast? hends
    rw [List.getLast?_append, List.getLast?_append] at hlast
    rcases b.getLast?_written with hb | hb <;> rw [hb] at hlast <;> cases l <;> cases hlast

/-- A slash or dot before an opening bracket is the lead of the block. -/
theorem Laid.lead_eq {segments : List Segment} {stop : Nat} {x y : List Char} {l : Lead}
    (h : Laid segments.reverse stop) (hwritten : writtenOf segments = x ++ l.char :: '[' :: y) :
    ∃ b ∈ blocksOf segments, b.lead = some l ∧ b.start = byteCount x := by
  have hopen : writtenOf segments = (x ++ [l.char]) ++ '[' :: y := by
    rw [hwritten, List.append_assoc, List.singleton_append]
  obtain ⟨earlier, b, later, hsplit, hbefore, -⟩ := h.exists_of_open hopen
  have hmem : b ∈ blocksOf segments := mem_blocksOf_iff.mpr (by rw [hsplit]; simp)
  have hstart := (h.span_eq hsplit).1
  cases hlead : b.lead with
  | some l' =>
    rw [Block.leadText, hlead] at hbefore
    obtain ⟨rfl, hchar⟩ := List.append_inj' hbefore rfl
    obtain rfl := Lead.char_injective (List.cons.inj hchar).1
    exact ⟨b, hmem, hlead, hstart⟩
  | none =>
    -- then a literal before the block would end in the lead
    rw [Block.leadText, hlead] at hbefore
    obtain ⟨stop', hlaid⟩ := h.upTo hsplit
    cases hlaid with
    | block hdone _ _ _ hno =>
      refine absurd (hdone.offersLead (x := x) (l := l) ?_) (hno hlead)
      rw [List.reverse_reverse]
      simpa using hbefore.symm

/-- A question mark behind a closing bracket makes the block optional. -/
theorem Laid.isOptional_eq {segments : List Segment} {stop : Nat} {x y : List Char}
    (h : Laid segments.reverse stop) (hwritten : writtenOf segments = x ++ ']' :: '?' :: y) :
    ∃ b ∈ blocksOf segments, b.isOptional = true ∧ b.stop = byteCount x + 2 := by
  obtain ⟨earlier, b, later, hsplit, hbefore, hafter⟩ := h.exists_of_close hwritten
  have hmem : b ∈ blocksOf segments := mem_blocksOf_iff.mpr (by rw [hsplit]; simp)
  cases hoptional : b.isOptional with
  | true =>
    obtain ⟨hstart, hstop⟩ := h.span_eq hsplit
    have hclose : (']' : Char).utf8Size = 1 := rfl
    have hmark : ('?' : Char).utf8Size = 1 := rfl
    refine ⟨b, hmem, hoptional, ?_⟩
    rw [hstop, hstart, hbefore, b.written_eq, Block.mark, hoptional]
    simp [hclose, hmark]
    omega
  | false =>
    -- then the question mark would begin the segment behind the block
    rw [Block.mark, hoptional] at hafter
    change '?' :: y = writtenOf later at hafter
    cases later with
    | nil => cases hafter
    | cons s later =>
      rw [writtenOf_cons] at hafter
      have hnext : segments = (earlier ++ [.block b]) ++ s :: later := by
        rw [hsplit, List.append_assoc, List.singleton_append]
      obtain ⟨stop', hlaid⟩ := h.upTo hnext
      rw [List.reverse_append] at hlaid
      cases s with
      | literal text =>
        cases hlaid with
        | literal _ hne _ _ hno =>
          change '?' :: y = text.toList ++ writtenOf later at hafter
          cases htext : text.toList with
          | nil => exact absurd htext hne
          | cons c rest =>
            rw [htext] at hafter
            obtain rfl := (List.cons.inj hafter).1
            exact absurd (by rw [htext]; rfl) (hno ⟨b, _, rfl, hoptional⟩)
      | block b' =>
        change '?' :: y = b'.written ++ writtenOf later at hafter
        rw [b'.written_eq, Block.leadText] at hafter
        rcases hlead : b'.lead with - | - | - <;> rw [hlead] at hafter <;> cases hafter

/-! ## All spans -/

theorem Laid.ordered {done : List Segment} {stop : Nat} (h : Laid done stop) :
    (blocksOf done).Pairwise (fun later earlier => earlier.stop ≤ later.start) ∧
      ∀ b ∈ blocksOf done, b.stop ≤ stop := by
  induction h with
  | nil => exact ⟨.nil, nofun⟩
  | literal _ _ _ _ _ ih => exact ⟨ih.1, fun b hb => Nat.le_add_right_of_le (ih.2 b hb)⟩
  | @block b done _ hstop _ _ _ ih =>
    refine ⟨List.pairwise_cons.mpr ⟨ih.2, ih.1⟩, fun other hmem => ?_⟩
    rcases List.mem_cons.mp hmem with rfl | hmem
    · exact Nat.le_refl _
    · have hother := ih.2 other hmem
      omega

theorem blocksOf_reverse (segments : List Segment) :
    blocksOf segments.reverse = (blocksOf segments).reverse :=
  List.filterMap_reverse

theorem Laid.endOfBlocks_eq {before : List Segment} {stop : Nat}
    (h : Laid before.reverse stop)
    (hat : AtBlock before.reverse) : endOfBlocks before = stop := by
  unfold endOfBlocks
  rcases hat with hnil | ⟨b, rest, hcons⟩
  · rw [hnil] at h
    rw [List.reverse_eq_nil_iff.mp hnil]
    cases h
    rfl
  · rw [hcons] at h
    have hlast : (blocksOf before).getLast? = some b := by
      rw [← List.head?_reverse, ← blocksOf_reverse, hcons]
      rfl
    rw [hlast]
    cases h
    rfl

/-- Two literals never stand next to each other. -/
theorem Laid.apart {segments before after : List Segment} {stop : Nat}
    {text text' : String} (h : Laid segments.reverse stop) :
    segments ≠ (before ++ [.literal text]) ++ .literal text' :: after := by
  intro hsplit
  obtain ⟨stop', hlaid⟩ := h.upTo hsplit
  rw [List.reverse_append] at hlaid
  cases hlaid with
  | literal _ _ _ hat => rcases hat with heq | ⟨b, rest, heq⟩ <;> cases heq

section

variable {template : String} {segments before after : List Segment} {stop : Nat}

theorem Laid.startOfBlocks_eq {text : String} (h : Laid segments.reverse stop)
    (hwritten : writtenOf segments = template.toList)
    (hsplit : segments = before ++ .literal text :: after) :
    startOfBlocks template after = byteCount (writtenOf before) + byteCount text.toList := by
  have hnext : segments = (before ++ [.literal text]) ++ after := by
    rw [hsplit, List.append_assoc, List.singleton_append]
  have hcount : byteCount (writtenOf (before ++ [.literal text])) =
      byteCount (writtenOf before) + byteCount text.toList := by
    simp [Segment.written]
  unfold startOfBlocks
  cases after with
  | nil =>
    rw [List.append_nil] at hnext
    rw [← hcount, ← hnext, hwritten, byteCount_toList]
    rfl
  | cons s rest =>
    cases s with
    | literal text' => exact absurd hnext h.apart
    | block b =>
      rw [← hcount, ← (h.span_eq hnext).1]
      rfl

/-- A literal is what stands between the block before it and the block behind it. -/
theorem Laid.gap_eq {text : String} (h : Laid segments.reverse stop)
    (hwritten : writtenOf segments = template.toList)
    (hsplit : segments = before ++ .literal text :: after) :
    text = byteSlice template (endOfBlocks before) (startOfBlocks template after) := by
  obtain ⟨stop', hlaid⟩ := h.upTo hsplit
  cases hlaid with
  | literal hdone _ _ hat =>
    have htemplate : template.toList = writtenOf before ++ text.toList ++ writtenOf after := by
      rw [← hwritten, hsplit]
      simp [Segment.written]
    have hstart := hdone.stop_eq
    rw [List.reverse_reverse] at hstart
    rw [hdone.endOfBlocks_eq hat, h.startOfBlocks_eq hwritten hsplit, hstart,
      byteSlice_eq htemplate, String.ofList_toList]

/-- A span is the place in the template of what the block writes. -/
theorem Laid.exists_place {b : Block} (h : Laid segments.reverse stop)
    (hwritten : writtenOf segments = template.toList) (hb : b ∈ blocksOf segments) :
    ∃ x y, template.toList = x ++ b.written ++ y ∧ b.start = byteCount x ∧
      b.stop = byteCount x + byteCount b.written := by
  obtain ⟨earlier, later, hsplit, -⟩ := h.upTo_mem (mem_blocksOf_iff.mp hb)
  obtain ⟨hstart, hstop⟩ := h.span_eq hsplit
  refine ⟨writtenOf earlier, writtenOf later, ?_, hstart, by rw [hstop, hstart]⟩
  rw [← hwritten, hsplit]
  simp [Segment.written]

theorem Laid.inRange {b : Block} (h : Laid segments.reverse stop)
    (hwritten : writtenOf segments = template.toList) (hb : b ∈ blocksOf segments) :
    b.start < b.stop ∧ b.stop ≤ template.utf8ByteSize := by
  obtain ⟨x, y, htemplate, hstart, hstop⟩ := h.exists_place hwritten hb
  have hsize := congrArg byteCount htemplate
  rw [byteCount_toList, byteCount_append, byteCount_append] at hsize
  have htwo := two_le_byteCount_written b
  omega

theorem Laid.blocks_ordered (h : Laid segments.reverse stop) :
    (blocksOf segments).Pairwise fun a b => a.stop ≤ b.start := by
  have hordered := h.ordered.1
  rwa [blocksOf_reverse, List.pairwise_reverse] at hordered

theorem Laid.sourceText_eq {b : Block} (h : Laid segments.reverse stop)
    (hwritten : writtenOf segments = template.toList) (hb : b ∈ blocksOf segments) :
    b.sourceText template = String.ofList b.written := by
  obtain ⟨x, y, htemplate, hstart, hstop⟩ := h.exists_place hwritten hb
  rw [Block.sourceText, hstart, hstop, byteSlice_eq htemplate]

theorem Laid.join_sourceText (h : Laid segments.reverse stop)
    (hwritten : writtenOf segments = template.toList) :
    String.join (segments.map (Segment.sourceText template)) = template := by
  have htexts : ∀ s ∈ segments, (s.sourceText template).toList = s.written := by
    intro s hs
    cases s with
    | literal text => rfl
    | block b =>
      show (b.sourceText template).toList = b.written
      rw [h.sourceText_eq hwritten (mem_blocksOf_iff.mpr hs), String.toList_ofList]
  apply String.toList_injective
  rw [String.toList_join, List.flatMap_map, List.flatMap_congr htexts]
  exact hwritten

end

/-- Reading a template loses nothing. -/
theorem covers_of_readTemplate {template : String} {segments : List Segment}
    (h : readTemplate template = .ok segments) : Covers template segments := by
  have hlaid := laid_of_readTemplate h
  have hwritten := writtenOf_of_readTemplate h
  constructor
  case joined => exact hlaid.join_sourceText hwritten
  case inRange => exact fun b hb => hlaid.inRange hwritten hb
  case onBoundaries =>
    intro b hb
    obtain ⟨x, y, htemplate, hstart, hstop⟩ := hlaid.exists_place hwritten hb
    constructor
    · rw [hstart]
      exact isValid_byteCount (by rw [htemplate, List.append_assoc])
    · rw [hstop, ← byteCount_append]
      exact isValid_byteCount htemplate
  case ordered => exact hlaid.blocks_ordered
  case gaps => exact fun before text after hsplit => hlaid.gap_eq hwritten hsplit
  case reads => exact fun b hb => hlaid.sourceText_eq hwritten hb
  case unmarked => exact fun b hb => hlaid.unmarked (mem_blocksOf_iff.mp hb)
  case names =>
    intro b _ name
    unfold Block.name?
    simp [Option.filter_eq_some_iff]
  case literals =>
    intro text htext
    obtain ⟨hne, hbracket⟩ := hlaid.noBracket htext
    exact ⟨fun heq => hne (by rw [heq]; rfl), hbracket⟩
  case apart =>
    rintro text text' ⟨before, after, heq⟩
    have hsplit : segments = (before ++ [.literal text]) ++ .literal text' :: after := by
      rw [← heq]
      simp
    exact hlaid.apart hsplit
  case leads => exact fun before l after htemplate => hlaid.lead_eq (hwritten.trans htemplate)
  case marks =>
    exact fun before after htemplate => hlaid.isOptional_eq (hwritten.trans htemplate)

/-- Texts of several bytes a character around two blocks, the first of them optional. -/
theorem covers_of_readTemplate_multibyte :
    let segments : List Segment := [
      .literal "/é", .block ⟨some .slash, "i", some "id", true, 3, 11⟩,
      .block ⟨some .dot, "", some "größe", false, 11, 22⟩, .literal "日"]
    readTemplate "/é/[i:id]?.[:größe]日" = .ok segments ∧
      Covers "/é/[i:id]?.[:größe]日" segments := by
  intro segments
  have hread : readTemplate "/é/[i:id]?.[:größe]日" = .ok segments := by decide +kernel
  exact ⟨hread, covers_of_readTemplate hread⟩

end UrlRouting
