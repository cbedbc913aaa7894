import Mathlib.Data.List.Chain
import Mathlib.Data.List.Induction
import UrlRouting.Proofs.Template.Passes
import UrlRouting.Proofs.Template.Spans

/-!
# Segments are read back as they were written

What a list of segments writes can be cut into segments in one way only. A slash
or a dot before a bracket is a lead, and a question mark behind one makes a
block optional, so a literal may not end in the former before a block without a
lead, nor begin with the latter behind a block that is not optional. Then the
text is read back to the same segments, each block with the byte range that it
was written to.

Main statements: `readTemplate_eq_ok_iff`, `exists_readTemplate_iff`,
`readTemplate_written`.
-/

namespace UrlRouting

/-- A literal that writes something and no bracket, or a block whose names write neither
brackets nor colons. The label may be empty. -/
def Segment.Clean : Segment → Prop
  | .literal text => text ≠ "" ∧ NoBracket text.toList
  | .block b => Unmarked b.typeName.toList ∧ ∀ label ∈ b.label, Unmarked label.toList

/-- Segments that can be told apart when they are written next to each other. -/
def Segment.MayPrecede : Segment → Segment → Prop
  | .literal _, .literal _ => False
  | .literal text, .block b =>
    b.lead = none → text.toList.getLast? ≠ some '/' ∧ text.toList.getLast? ≠ some '.'
  | .block b, .literal text => b.isOptional = false → text.toList.head? ≠ some '?'
  | .block _, .block _ => True

/-- Segments that leave no doubt about what they write. -/
structure Proper (segments : List Segment) : Prop where
  clean : ∀ s ∈ segments, s.Clean
  neighbours : segments.IsChain Segment.MayPrecede

instance : DecidablePred Segment.Clean
  | .literal _ => inferInstanceAs (Decidable (_ ∧ _))
  | .block _ => inferInstanceAs (Decidable (_ ∧ _))

instance : DecidableRel Segment.MayPrecede
  | .literal _, .literal _ => inferInstanceAs (Decidable False)
  | .literal _, .block _ => inferInstanceAs (Decidable (_ → _))
  | .block _, .literal _ => inferInstanceAs (Decidable (_ → _))
  | .block _, .block _ => inferInstanceAs (Decidable True)

instance (segments : List Segment) : Decidable (Proper segments) :=
  decidable_of_iff ((∀ s ∈ segments, s.Clean) ∧ segments.IsChain Segment.MayPrecede)
    ⟨fun h => ⟨h.1, h.2⟩, fun h => ⟨h.clean, h.neighbours⟩⟩

/-- The segment where it is written from a byte offset on. -/
def Segment.placedAt (start : Nat) : Segment → Segment
  | .literal text => .literal text
  | .block b => .block { b with start := start, stop := start + byteCount b.written }

/-- The segments where they are written one behind the other. -/
def placedFrom : Nat → List Segment → List Segment
  | _, [] => []
  | start, s :: rest => s.placedAt start :: placedFrom (start + byteCount s.written) rest

/-- A segment wherever it may stand. -/
def Segment.bare : Segment → Segment
  | .literal text => .literal text
  | .block b => .block { b with start := 0, stop := 0 }

/-! ## Places -/

@[simp] theorem Segment.written_placedAt (s : Segment) (start : Nat) :
    (s.placedAt start).written = s.written := by
  cases s <;> rfl

@[simp] theorem Segment.bare_placedAt (s : Segment) (start : Nat) :
    (s.placedAt start).bare = s.bare := by
  cases s <;> rfl

@[simp] theorem writtenOf_placedFrom (start : Nat) (segments : List Segment) :
    writtenOf (placedFrom start segments) = writtenOf segments := by
  induction segments generalizing start with
  | nil => rfl
  | cons s rest ih => simp [placedFrom, ih]

theorem map_bare_placedFrom (start : Nat) (segments : List Segment) :
    (placedFrom start segments).map Segment.bare = segments.map Segment.bare := by
  induction segments generalizing start with
  | nil => rfl
  | cons s rest ih => simp [placedFrom, ih]

theorem placedFrom_concat (start : Nat) (segments : List Segment) (s : Segment) :
    placedFrom start (segments ++ [s]) =
      placedFrom start segments ++ [s.placedAt (start + byteCount (writtenOf segments))] := by
  induction segments generalizing start with
  | nil => rfl
  | cons s' rest ih => simp [placedFrom, ih, Nat.add_assoc]

/-! ## Proper segments lie one behind the other -/

theorem Proper.of_concat {segments : List Segment} {s : Segment}
    (h : Proper (segments ++ [s])) : Proper segments where
  clean := fun s hmem => h.clean s (List.mem_append_left _ hmem)
  neighbours := (List.isChain_append.mp h.neighbours).1

/-- The segment that was put in its place last may precede the one that follows. -/
theorem Proper.mayPrecede {segments rest : List Segment} {s last : Segment} {start : Nat}
    (h : Proper (segments ++ [s]))
    (hlast : (placedFrom start segments).reverse = last :: rest) :
    last.MayPrecede s := by
  rcases List.eq_nil_or_concat' segments with rfl | ⟨init, s', rfl⟩
  · cases hlast
  · rw [placedFrom_concat, List.reverse_append] at hlast
    obtain rfl := (List.cons.inj hlast).1
    have hnext : s'.MayPrecede s :=
      (List.isChain_append.mp h.neighbours).2.2 s' (by simp) s (by simp)
    cases s' with
    | literal text => exact hnext
    | block b => cases s <;> exact hnext

theorem Proper.atBlock {segments : List Segment} {text : String}
    (h : Proper (segments ++ [.literal text])) :
    AtBlock (placedFrom 0 segments).reverse := by
  cases hlast : (placedFrom 0 segments).reverse with
  | nil => exact .inl rfl
  | cons last rest =>
    have hnext := h.mayPrecede hlast
    cases last with
    | literal text' => exact absurd hnext id
    | block b => exact .inr ⟨b, rest, rfl⟩

theorem Proper.head?_ne {segments : List Segment} {text : String}
    (h : Proper (segments ++ [.literal text]))
    (hawaits : AwaitsMark (placedFrom 0 segments).reverse) :
    text.toList.head? ≠ some '?' := by
  obtain ⟨b, rest, hlast, hoptional⟩ := hawaits
  exact h.mayPrecede hlast hoptional

theorem Proper.not_offersLead {segments : List Segment} {b : Block}
    (h : Proper (segments ++ [.block b])) (hlead : b.lead = none) :
    ¬ OffersLead (placedFrom 0 segments).reverse := by
  rintro ⟨text, rest, before, l, hlast, htext⟩
  obtain ⟨hslash, hdot⟩ := h.mayPrecede hlast hlead
  have hlast : text.toList.getLast? = some l.char := by
    rw [htext, List.getLast?_append]
    rfl
  cases l with
  | slash => exact hslash hlast
  | dot => exact hdot hlast

/-- Proper segments, put in their places, are laid. -/
theorem laid_placedFrom {segments : List Segment} (h : Proper segments) :
    Laid (placedFrom 0 segments).reverse (byteCount (writtenOf segments)) := by
  induction segments using List.reverseRecOn with
  | nil => exact .nil
  | append_singleton segments s ih =>
    have hinit := ih h.of_concat
    have hclean := h.clean s (List.mem_append_right _ (List.mem_cons_self ..))
    rw [placedFrom_concat, List.reverse_append, Nat.zero_add, writtenOf_append, byteCount_append,
      writtenOf_cons, writtenOf_nil, List.append_nil]
    cases s with
    | literal text =>
      obtain ⟨hne, hbracket⟩ := hclean
      refine .literal hinit ?_ hbracket h.atBlock h.head?_ne
      intro hnil
      exact hne (String.toList_injective hnil)
    | block b =>
      obtain ⟨htype, hlabel⟩ := hclean
      exact .block (b := { b with
          start := byteCount (writtenOf segments)
          stop := byteCount (writtenOf segments) + byteCount b.written })
        hinit rfl htype hlabel h.not_offersLead

/-! ## Reading on behind laid segments -/

/-- The pass behind segments, the last one first, that end at a byte offset. -/
def Scan.behind : List Segment → Nat → Scan
  | [], position => ⟨position, [], .literal []⟩
  | .literal text :: done, position => ⟨position, done, .literal text.toList.reverse⟩
  | .block b :: done, position =>
    if b.isOptional then ⟨position, .block b :: done, .literal []⟩
    else ⟨position, done, .closed b⟩

theorem Scan.behind_optional {b : Block} (h : b.isOptional = true) (done : List Segment)
    (position : Nat) :
    Scan.behind (.block b :: done) position = ⟨position, .block b :: done, .literal []⟩ :=
  if_pos h

theorem Scan.behind_required {b : Block} (h : b.isOptional = false) (done : List Segment)
    (position : Nat) :
    Scan.behind (.block b :: done) position = ⟨position, done, .closed b⟩ :=
  if_neg (by rw [h]; decide)

theorem closeLiteral_reverse {text : String} (h : text.toList ≠ [])
    (done : List Segment) :
    closeLiteral text.toList.reverse done = .literal text :: done := by
  rw [closeLiteral, if_neg (by simpa using h), List.reverse_reverse, String.ofList_toList]

theorem Scan.finish_behind {done : List Segment} {stop : Nat} (h : Laid done stop) :
    (Scan.behind done stop).finish = .ok done.reverse := by
  cases h with
  | nil => rfl
  | @literal text done _ _ hne =>
    show Except.ok (closeLiteral text.toList.reverse done).reverse = _
    rw [closeLiteral_reverse hne]
  | @block b done =>
    cases hoptional : b.isOptional with
    | true =>
      rw [Scan.behind_optional hoptional]
      rfl
    | false =>
      rw [Scan.behind_required hoptional]
      rfl

/-- A question mark apart, reading goes on in literal text, which is empty
behind a block. -/
theorem exists_foldlM_behind {done : List Segment} {stop : Nat} (h : Laid done stop) :
    ∃ before held, closeLiteral held before = done ∧
      ∀ c rest, (AwaitsMark done → c ≠ '?') →
        (c :: rest).foldlM Scan.step (Scan.behind done stop) =
          (c :: rest).foldlM Scan.step ⟨stop, before, .literal held⟩ := by
  cases h with
  | nil => exact ⟨[], [], rfl, fun _ _ _ => rfl⟩
  | @literal text done _ _ hne =>
    exact ⟨done, text.toList.reverse, closeLiteral_reverse hne done, fun _ _ _ => rfl⟩
  | @block b done =>
    refine ⟨.block b :: done, [], rfl, fun c rest hmark => ?_⟩
    cases hoptional : b.isOptional with
    | true => rw [Scan.behind_optional hoptional]
    | false =>
      have hne : c ≠ '?' := hmark ⟨b, done, rfl, hoptional⟩
      have hstep : Scan.step ⟨b.stop, done, .closed b⟩ c =
          Scan.step ⟨b.stop, .block b :: done, .literal []⟩ c := by
        simp [Scan.step, hne]
      rw [Scan.behind_required hoptional, List.foldlM_cons, List.foldlM_cons, hstep]

theorem foldlM_behind_literal {done : List Segment} {stop : Nat} {text : String}
    (h : Laid (.literal text :: done) stop) :
    ∃ stop', Laid done stop' ∧ text.toList.foldlM Scan.step (Scan.behind done stop') =
      .ok (Scan.behind (.literal text :: done) stop) := by
  cases h with
  | @literal _ _ stop' hdone hne hbracket hat hmark =>
    refine ⟨stop', hdone, ?_⟩
    obtain ⟨before, held, hclose, hread⟩ := exists_foldlM_behind hdone
    -- no literal stands before this one, so the text held is empty
    have hheld : held = [] ∧ before = done := by
      unfold closeLiteral at hclose
      split at hclose
      · next hnil => exact ⟨hnil, hclose⟩
      · rcases hat with rfl | ⟨b, rest, rfl⟩
        · cases hclose
        · cases hclose
    obtain ⟨rfl, rfl⟩ := hheld
    have htext := foldlM_step_literal hbracket stop' before []
    rw [List.append_nil] at htext
    cases hchars : text.toList with
    | nil => exact absurd hchars hne
    | cons c rest =>
      rw [hread c rest, ← hchars]
      · exact htext
      · intro hawaits heq
        exact hmark hawaits (by rw [hchars, heq]; rfl)

theorem splitLead_of_not_offersLead {held : List Char} {before : List Segment}
    (h : ¬ OffersLead (closeLiteral held before)) : splitLead held = (none, held) := by
  cases held with
  | nil => rfl
  | cons c held =>
    cases hlead : Lead.ofChar? c with
    | none => simp [splitLead, hlead]
    | some l =>
      rw [closeLiteral, if_neg (List.cons_ne_nil c held)] at h
      refine absurd ⟨_, _, held.reverse, l, rfl, ?_⟩ h
      rw [String.toList_ofList, List.reverse_cons, Lead.ofChar?_eq_some_iff.mp hlead]

/-- The opening bracket of a block, with its lead, closes the literal text before it. -/
theorem foldlM_step_opening {before : List Segment} {held : List Char}
    {lead : Option Lead}
    (h : lead = none → ¬ OffersLead (closeLiteral held before)) (position : Nat) :
    ((lead.map Lead.char).toList ++ ['[']).foldlM Scan.step ⟨position, before, .literal held⟩ =
      .ok ⟨position + Lead.width lead + 1, closeLiteral held before,
        .typeName (position + Lead.width lead) lead []⟩ := by
  cases lead with
  | none =>
    show stepLiteral position before held '[' >>= pure = _
    rw [stepLiteral, if_neg (by decide), if_pos rfl, splitLead_of_not_offersLead (h rfl)]
    rfl
  | some l => cases l <;> rfl

/-- What stands between the brackets makes the block. -/
theorem foldlM_step_inner {b : Block} (htype : Unmarked b.typeName.toList)
    (hlabel : ∀ label, b.label = some label → Unmarked label.toList)
    (position opened : Nat) (lead : Option Lead) (done : List Segment) :
    (b.inner ++ [']']).foldlM Scan.step ⟨position, done, .typeName opened lead []⟩ =
      .ok ⟨position + byteCount b.inner + 1, done, .closed
        (completeBlock opened (position + byteCount b.inner) lead b.typeName b.label)⟩ := by
  unfold Block.inner
  cases hb : b.label with
  | none =>
    rw [List.append_nil, foldlM_step_append (foldlM_step_typeName htype position)]
    simp [Scan.step]
  | some label =>
    rw [foldlM_step_append (foldlM_step_label htype (hlabel label hb) position)]
    simp [Scan.step]

theorem Block.byteCount_written_eq (b : Block) :
    byteCount b.written = Lead.width b.lead + 1 + byteCount b.inner + 1 + byteCount b.mark := by
  have hopen : ('[' : Char).utf8Size = 1 := rfl
  have hclose : (']' : Char).utf8Size = 1 := rfl
  rw [b.written_eq, Block.leadText]
  simp [byteCount_leadText, hopen, hclose]
  omega

/-- What the closing bracket completes is the block, but for its question mark. -/
theorem completeBlock_eq (b : Block) (position : Nat) :
    completeBlock (b.start + Lead.width b.lead) position b.lead b.typeName b.label =
      { b with isOptional := false, stop := position + 1 } := by
  unfold completeBlock
  rw [Nat.add_sub_cancel]

/-- The question mark, or its absence, completes the block itself. -/
theorem foldlM_step_mark {b : Block} {position : Nat}
    (hstop : b.stop = position + byteCount b.mark) (done : List Segment) :
    b.mark.foldlM Scan.step
        ⟨position, done, .closed { b with isOptional := false, stop := position }⟩ =
      .ok (Scan.behind (.block b :: done) b.stop) := by
  obtain ⟨lead, typeName, label, isOptional, start, stop⟩ := b
  cases isOptional with
  | false =>
    obtain rfl : stop = position := hstop
    rfl
  | true =>
    obtain rfl : stop = position + 1 := hstop
    rfl

theorem foldlM_behind_block {b : Block} {done : List Segment} {stop : Nat}
    (h : Laid (.block b :: done) stop) :
    Laid done b.start ∧ b.written.foldlM Scan.step (Scan.behind done b.start) =
      .ok (Scan.behind (.block b :: done) stop) := by
  cases h with
  | block hdone hstop htype hlabel hlead =>
    refine ⟨hdone, ?_⟩
    obtain ⟨before, held, hclose, hread⟩ := exists_foldlM_behind hdone
    rw [← hclose] at hlead
    have hopening := foldlM_step_opening hlead b.start
    have hinner := foldlM_step_inner htype hlabel (b.start + Lead.width b.lead + 1)
      (b.start + Lead.width b.lead) b.lead done
    have hsize := b.byteCount_written_eq
    -- the lead or the bracket comes first, and neither is a question mark
    have hfirst : ∃ c rest, b.written = c :: rest ∧ c ≠ '?' := by
      rw [b.written_eq, Block.leadText]
      rcases b.lead with - | - | - <;> exact ⟨_, _, rfl, by decide⟩
    obtain ⟨c, rest, hwritten, hne⟩ := hfirst
    rw [hwritten, hread c rest fun _ => hne, ← hwritten]
    have hsplit : b.written =
        ((b.lead.map Lead.char).toList ++ ['[']) ++ ((b.inner ++ [']']) ++ b.mark) := by
      rw [b.written_eq, Block.leadText]
      simp
    rw [hsplit, foldlM_step_append hopening, hclose, foldlM_step_append hinner, completeBlock_eq]
    apply foldlM_step_mark
    omega

/-- A pass over what laid segments write ends behind them. -/
theorem passOver_writtenOf {done : List Segment} {stop : Nat} (h : Laid done stop) :
    passOver (writtenOf done.reverse) = .ok (Scan.behind done stop) := by
  -- by the last segment, which is read on behind the earlier ones
  induction done generalizing stop with
  | nil =>
    cases h
    rfl
  | cons s done ih =>
    rw [writtenOf_reverse_cons]
    cases s with
    | literal text =>
      obtain ⟨stop', hdone, hread⟩ := foldlM_behind_literal h
      exact (passOver_append (ih hdone)).trans hread
    | block b =>
      obtain ⟨hdone, hread⟩ := foldlM_behind_block h
      exact (passOver_append (ih hdone)).trans hread

/-- A template is read to the segments that are laid and write it, and to no others. -/
theorem readTemplate_eq_ok_iff {template : String} {segments : List Segment} :
    readTemplate template = .ok segments ↔
      Laid segments.reverse (byteCount template.toList) ∧
        writtenOf segments = template.toList := by
  constructor
  · intro h
    exact ⟨laid_of_readTemplate h, writtenOf_of_readTemplate h⟩
  · rintro ⟨hlaid, hwritten⟩
    have hpass := passOver_writtenOf hlaid
    rw [List.reverse_reverse, hwritten] at hpass
    have hread := (readSegments_eq_of_passOver hpass).trans (Scan.finish_behind hlaid)
    rwa [List.reverse_reverse] at hread

/-! ## Proper segments -/

theorem readTemplate_placedFrom {segments : List Segment} (h : Proper segments) :
    readTemplate (String.ofList (writtenOf segments)) = .ok (placedFrom 0 segments) := by
  rw [readTemplate_eq_ok_iff, String.toList_ofList, writtenOf_placedFrom]
  exact ⟨laid_placedFrom h, rfl⟩

theorem Proper.concat {segments : List Segment} {s : Segment} (h : Proper segments)
    (hclean : s.Clean) (hnext : ∀ last ∈ segments.getLast?, last.MayPrecede s) :
    Proper (segments ++ [s]) where
  clean := by
    intro s' hmem
    rcases List.mem_append.mp hmem with hmem | hmem
    · exact h.clean s' hmem
    · rwa [List.mem_singleton.mp hmem]
  neighbours := by
    refine List.isChain_append.mpr ⟨h.neighbours, .singleton s, ?_⟩
    intro last hlast s' hs'
    cases hs'
    exact hnext last hlast

theorem proper_of_laid {done : List Segment} {stop : Nat} (h : Laid done stop) :
    Proper done.reverse := by
  induction h with
  | nil => exact ⟨List.forall_mem_nil _, .nil⟩
  | @literal text done _ _ hne hbracket hat hmark ih =>
    rw [List.reverse_cons]
    refine ih.concat ⟨fun heq => hne (by rw [heq]; rfl), hbracket⟩ ?_
    intro last hlast
    rw [List.getLast?_reverse] at hlast
    rcases hat with rfl | ⟨b, rest, rfl⟩
    · cases hlast
    · cases hlast
      exact fun hoptional => hmark ⟨b, rest, rfl, hoptional⟩
  | @block b done _ _ htype hlabel hlead ih =>
    rw [List.reverse_cons]
    refine ih.concat ⟨htype, hlabel⟩ ?_
    intro last hlast
    rw [List.getLast?_reverse] at hlast
    cases last with
    | block b' => exact trivial
    | literal text =>
      obtain ⟨rest, rfl⟩ := List.head?_eq_some_iff.mp hlast
      have hends : ∀ l : Lead, b.lead = none → text.toList.getLast? ≠ some l.char := by
        intro l hnone hl
        obtain ⟨before, hbefore⟩ := List.getLast?_eq_some_iff.mp hl
        exact hlead hnone ⟨text, rest, before, l, rfl, hbefore⟩
      exact fun hnone => ⟨hends .slash hnone, hends .dot hnone⟩

theorem placedFrom_of_laid {done : List Segment} {stop : Nat} (h : Laid done stop) :
    placedFrom 0 done.reverse = done.reverse := by
  induction h with
  | nil => rfl
  | literal _ _ _ _ _ ih =>
    rw [List.reverse_cons, placedFrom_concat, ih]
    rfl
  | @block b done hdone hstop _ _ _ ih =>
    rw [List.reverse_cons, placedFrom_concat, ih, Nat.zero_add, ← hdone.stop_eq]
    show _ ++ [Segment.block { b with stop := b.start + byteCount b.written }] = _
    rw [← hstop]

/-- What templates are read to are the proper segments in their places. -/
theorem exists_readTemplate_iff {segments : List Segment} :
    (∃ template, readTemplate template = .ok segments) ↔
      Proper segments ∧ placedFrom 0 segments = segments := by
  constructor
  · rintro ⟨template, h⟩
    have hlaid := laid_of_readTemplate h
    have hproper := proper_of_laid hlaid
    have hplaced := placedFrom_of_laid hlaid
    rw [List.reverse_reverse] at hproper hplaced
    exact ⟨hproper, hplaced⟩
  · rintro ⟨hproper, hplaced⟩
    have hread := readTemplate_placedFrom hproper
    rw [hplaced] at hread
    exact ⟨_, hread⟩

/-- Proper segments are read back from what they write, each block with the byte
range that it was written to, and no other proper segments write the same. -/
theorem readTemplate_written (segments : List Segment) (h : Proper segments) :
    readTemplate (String.ofList (writtenOf segments)) = .ok (placedFrom 0 segments) ∧
      ∀ others, Proper others → writtenOf others = writtenOf segments →
        others.map Segment.bare = segments.map Segment.bare := by
  have hread := readTemplate_placedFrom h
  refine ⟨hread, fun others hothers hwritten => ?_⟩
  have hother := readTemplate_placedFrom hothers
  rw [hwritten, hread] at hother
  have hplaced : placedFrom 0 segments = placedFrom 0 others := Except.ok.inj hother
  rw [← map_bare_placedFrom 0 others, ← hplaced, map_bare_placedFrom]

/-- Leads, question marks and colons wherever they are allowed, between texts of
several bytes a character. -/
theorem readTemplate_written_multibyte :
    let segments : List Segment := [
      .literal "é?", .block ⟨some .slash, "i", some "id", true, 0, 0⟩,
      .block ⟨some .dot, "", none, false, 0, 0⟩, .literal "日.",
      .block ⟨some .slash, "", some "größe", false, 0, 0⟩,
      .block ⟨none, "h", some "", false, 0, 0⟩, .literal ":?/"]
    Proper segments ∧
      readTemplate "é?/[i:id]?.[]日./[:größe][h:]:?/" = .ok [
        .literal "é?", .block ⟨some .slash, "i", some "id", true, 3, 11⟩,
        .block ⟨some .dot, "", none, false, 11, 14⟩, .literal "日.",
        .block ⟨some .slash, "", some "größe", false, 18, 29⟩,
        .block ⟨none, "h", some "", false, 29, 33⟩, .literal ":?/"] := by
  intro segments
  have hproper : Proper segments := by decide +kernel
  refine ⟨hproper, ?_⟩
  have hwritten : writtenOf segments = "é?/[i:id]?.[]日./[:größe][h:]:?/".toList := by
    decide +kernel
  have hread := (readTemplate_written segments hproper).1
  rwa [hwritten, String.ofList_toList] at hread

end UrlRouting
