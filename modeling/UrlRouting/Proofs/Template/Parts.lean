import Mathlib.Data.List.Nodup
import UrlRouting.Pattern.Text
import UrlRouting.Proofs.Regex.Fragments
import UrlRouting.Proofs.Template.Cuts

/-!
# Templates read as parts

The pattern text of a template is made up of the texts of its segments. If every
literal is read as its characters and the fragment of every block is held by the
group around it, then the whole is read as one expression for each character and
block, in order. What the fragments are does not matter for this.

Main statements: `readTokens_segments` and `readBetween_of_foldlM`.
-/

namespace UrlRouting

open Regex

/-! ## The pattern text -/

/-- The pattern text of a segment, given the fragment of each block. -/
def Segment.textBy (fragment : Block → List Char) : Segment → List Char
  | .literal text => text.toList
  | .block b => b.patternText (fragment b)

theorem segmentsText_textBy {types : MatchTypes} {fragment : Block → List Char}
    {segments : List Segment}
    (h : ∀ b, .block b ∈ segments → types.get? b.typeName = some (String.ofList (fragment b))) :
    segmentsText types segments = .ok (segments.flatMap (Segment.textBy fragment)) := by
  induction segments with
  | nil => rfl
  | cons s rest ih =>
    have hs : s.patternText types = .ok (s.textBy fragment) := by
      cases s with
      | literal text => rfl
      | block b =>
        rw [Segment.patternText, h b (List.mem_cons_self ..)]
        simp only [String.toList_ofList, Segment.textBy]
    rw [segmentsText, hs, ih fun b hb => h b (List.mem_cons_of_mem s hb)]
    rfl

/-! ## The expression -/

/-- The group that captures the value of a block. -/
def Block.valueBy (part : Part) (b : Block) (number : Nat) : Pattern :=
  .group number b.name? (part.expr.shift number)

/-- The lead of a block and its value. -/
def Block.presentBy (part : Part) (b : Block) (number : Nat) : Pattern :=
  match b.lead with
  | none => b.valueBy part number
  | some lead => .seq (Pattern.char lead.char) (b.valueBy part number)

/-- The expression of a block, whose value is captured under a number. -/
def Block.exprBy (part : Part) (b : Block) (number : Nat) : Pattern :=
  if b.isOptional then .loop 0 (some 1) true (b.presentBy part number)
  else b.presentBy part number

/-- How deeply the expression of a block is nested. -/
def Block.depthBy (part : Part) (b : Block) : Nat :=
  part.depth + 2 + (if b.lead.isSome then 1 else 0) + (if b.isOptional then 1 else 0)

/-- The expressions of the characters and blocks of a template. `count` groups
stand before them. -/
def segmentExprsBy (part : Block → Part) (count : Nat) : List Segment → List Pattern
  | [] => []
  | .literal text :: rest => text.toList.map Pattern.char ++ segmentExprsBy part count rest
  | .block b :: rest =>
    b.exprBy (part b) (count + 1) :: segmentExprsBy part (count + 1 + (part b).groups) rest

/-- The expression of a whole template. -/
def templateExprBy (part : Block → Part) (segments : List Segment) : Pattern :=
  Expr.concat (.test .textStart :: (segmentExprsBy part 0 segments ++ [.test .textEnd]))

/-! ## Reading a block -/

/-- What reading a block adds. -/
def Block.readBy (part : Part) (b : Block) (r : Regex.Reading) : Regex.Reading :=
  { r with
    captures := r.captures + 1 + part.groups
    names := b.name?.toList ++ r.names
    level := r.level.add ⟨b.exprBy part (r.captures + 1), b.depthBy part, true⟩ }

/-- The text between the opening of the capture of a block and its expression. -/
def Block.nameText (b : Block) : List Char :=
  match b.name? with
  | none => []
  | some name => ['?', 'P', '<'] ++ name.toList ++ ['>']

theorem Block.patternText_append (b : Block) (fragment rest : List Char) :
    b.patternText fragment ++ rest =
      '(' :: '?' :: ':' :: ((b.lead.map Lead.patternText).getD [] ++
        ('(' :: (b.nameText ++ (fragment ++
          (')' :: ')' :: ((if b.isOptional then ['?'] else []) ++ rest)))))) := by
  unfold Block.patternText Block.nameText
  cases b.name? <;> simp only [List.append_assoc, List.cons_append, List.nil_append]

theorem readTokens_lead (lead : Option Lead) (r : Regex.Reading) (hflags : r.flags = {})
    (rest : List Char) :
    readTokens r ((lead.map Lead.patternText).getD [] ++ rest) =
      readTokens (r.addAll (lead.map fun l => Piece.char l.char).toList) rest := by
  rcases lead with - | - | -
  · rfl
  · have htoken : readToken {} ('/' :: rest) = some (.leaf (Pattern.char '/') 0, rest) := rfl
    exact readTokens_of_token hflags htoken
  · have htoken : readToken {} ('\\' :: '.' :: rest) =
        some (.leaf (Pattern.char '.') 0, rest) := rfl
    exact readTokens_of_token hflags htoken

/-- The group of a block up to its capture. -/
theorem readTokens_opening (b : Block) (r : Regex.Reading) (hflags : r.flags = {})
    (rest : List Char) :
    readTokens r ('(' :: '?' :: ':' :: ((b.lead.map Lead.patternText).getD [] ++ rest)) =
      readTokens ((r.enter none {}).addAll (b.lead.map fun l => Piece.char l.char).toList)
        rest := by
  have hopen : ∀ cs, readToken {} ('(' :: '?' :: ':' :: cs) = some (.plain {}, cs) := fun _ => rfl
  have hclear : (r.enter none {}).flags = {} := rfl
  rw [readTokens_of_token hflags (hopen _)]
  exact readTokens_lead b.lead _ hclear rest

/-- The capture of a block opens with its name, if it has one. -/
theorem readToken_capture {b : Block} {rest : List Char}
    (hnamed : b.name?.all (fun name => isGroupName name.toList) = true)
    (hrest : rest.head? ≠ some '?') :
    readToken {} ('(' :: (b.nameText ++ rest)) = some (.capture b.name?, rest) := by
  unfold Block.nameText
  cases hname : b.name? with
  | none =>
    refine readOpen_eq_some_iff.mpr (.inl ⟨?_, rfl, rfl⟩)
    rintro tail heq
    have hcons : rest = '?' :: tail := heq
    exact hrest (by rw [hcons]; rfl)
  | some name =>
    rw [hname] at hnamed
    simpa using readToken_named hnamed rest

/-- The group of a block closes over its lead and its value. -/
theorem Block.close_presentBy (part : Part) (b : Block) (number : Nat)
    (outerFlags : Flags) :
    (Regex.Level.mk none outerFlags [] (⟨b.valueBy part number, part.depth + 1, true⟩ ::
        (b.lead.map fun l => Piece.char l.char).toList)).close =
      ⟨b.presentBy part number, part.depth + 2 + (if b.lead.isSome then 1 else 0), true⟩ := by
  unfold Block.presentBy
  rcases b.lead with - | lead
  · rfl
  · have hdeep : 1 + deepest [⟨b.valueBy part number, part.depth + 1, true⟩,
        Piece.char lead.char] + 1 = part.depth + 2 + 1 := by
      simp only [deepest, Piece.char, List.map_cons, List.map_nil, List.foldl_cons, List.foldl_nil]
      omega
    exact congrArg (Piece.mk _ · true) hdeep

/-- The group of a block without its question mark. -/
theorem readTokens_present {b : Block} {fragment : List Char} {part : Part}
    (hnamed : b.name?.all (fun name => isGroupName name.toList) = true)
    (hheld : HeldAs fragment part) (r : Regex.Reading) (hflags : r.flags = {})
    (rest : List Char) :
    readTokens r ('(' :: '?' :: ':' :: ((b.lead.map Lead.patternText).getD [] ++
        ('(' :: (b.nameText ++ (fragment ++ (')' :: ')' :: rest)))))) =
      if b.name?.any r.names.contains then none
      else readTokens { r with
        captures := r.captures + 1 + part.groups
        names := b.name?.toList ++ r.names
        level := r.level.add ⟨b.presentBy part (r.captures + 1),
          part.depth + 2 + (if b.lead.isSome then 1 else 0), true⟩ } rest := by
  have hclose : ∀ cs, readToken {} (')' :: cs) = some (.close, cs) := fun _ => rfl
  have hhead : (fragment ++ (')' :: ')' :: rest)).head? ≠ some '?' := by
    have hhead := hheld.head
    cases fragment with
    | nil => simp
    | cons c cs => exact hhead
  -- the reading inside the group, behind the lead
  obtain ⟨inside, hinside⟩ : ∃ inside, inside =
      (r.enter none {}).addAll (b.lead.map fun l => Piece.char l.char).toList := ⟨_, rfl⟩
  have hsame : inside.flags = {} ∧ inside.captures = r.captures ∧ inside.names = r.names ∧
      inside.level =
        ⟨none, r.flags, [], (b.lead.map fun l => Piece.char l.char).toList⟩ ∧
      inside.outer = r.level :: r.outer := by
    rw [hinside, Regex.Reading.addAll_eq]
    refine ⟨rfl, rfl, rfl, ?_, rfl⟩
    cases b.lead <;> rfl
  obtain ⟨hclear, hcaptures, hnames, hlevel, houter⟩ := hsame
  rw [readTokens_opening b r hflags, ← hinside,
    readTokens_of_token hclear (readToken_capture hnamed hhead),
    Regex.Reading.apply_capture, hnames]
  by_cases hdup : b.name?.any r.names.contains = true
  · rw [if_pos hdup, if_pos hdup]
    rfl
  · -- the reading inside the group, behind the value
    obtain ⟨held, hheldEq⟩ : ∃ held : Regex.Reading, held = { inside with
        captures := inside.captures + 1 + part.groups
        names := b.name?.toList ++ inside.names
        level := inside.level.add
          ⟨b.valueBy part (inside.captures + 1), part.depth + 1, true⟩ } := ⟨_, rfl⟩
    have hcapturing : (inside.capturing b.name?).flags = {} := hclear
    have hcapturingLevel : (inside.capturing b.name?).level =
        ⟨some (inside.captures + 1, b.name?), {}, [], []⟩ := by
      rw [← hclear]
      rfl
    have hcapturingOuter : (inside.capturing b.name?).outer = inside.level :: inside.outer := rfl
    have hvalue : readTokens (inside.capturing b.name?) (fragment ++ ')' :: (')' :: rest)) =
        readTokens held (')' :: rest) := by
      rw [hheld.closes _ hcapturing hcapturingLevel hcapturingOuter, hheldEq]
      rfl
    have hheldClear : held.flags = {} := by rw [hheldEq]; exact hclear
    have hheldOuter : held.outer = r.level :: r.outer := by rw [hheldEq]; exact houter
    rw [if_neg hdup, if_neg hdup, Option.bind_some, hvalue,
      readTokens_of_token hheldClear (hclose _),
      Regex.Reading.apply_close hheldOuter, Option.bind_some, hheldEq, hcaptures, hnames, hlevel]
    exact congrArg (fun piece => readTokens { r with
        captures := r.captures + 1 + part.groups
        names := b.name?.toList ++ r.names
        level := r.level.add piece } rest) (b.close_presentBy part (r.captures + 1) r.flags)

/-- The group of a block is read as its expression, unless its name is taken. A question
mark behind a block would be read as part of it. -/
theorem readTokens_block {b : Block} {fragment : List Char} {part : Part}
    (hnamed : b.name?.all (fun name => isGroupName name.toList) = true)
    (hheld : HeldAs fragment part) (r : Regex.Reading) (hflags : r.flags = {})
    (rest : List Char) (hrest : rest.head? ≠ some '?') :
    readTokens r (b.patternText fragment ++ rest) =
      if b.name?.any r.names.contains then none else readTokens (b.readBy part r) rest := by
  rw [b.patternText_append, readTokens_present hnamed hheld r hflags]
  by_cases hdup : b.name?.any r.names.contains = true
  · rw [if_pos hdup, if_pos hdup]
  · rw [if_neg hdup, if_neg hdup]
    unfold Block.readBy Block.exprBy Block.depthBy
    cases b.isOptional with
    | false => rfl
    | true =>
      -- the question mark turns the piece that was added last into an optional one
      obtain ⟨held, hheldEq⟩ : ∃ held : Regex.Reading, held = { r with
          captures := r.captures + 1 + part.groups
          names := b.name?.toList ++ r.names } := ⟨_, rfl⟩
      have hclear : held.flags = {} := by rw [hheldEq]; exact hflags
      have hadd : ∀ piece, { r with
          captures := r.captures + 1 + part.groups
          names := b.name?.toList ++ r.names
          level := r.level.add piece } = held.add piece := by rw [hheldEq]; exact fun _ => rfl
      rw [hadd, hadd, if_pos rfl, if_pos rfl, if_pos rfl, List.singleton_append,
        readTokens_of_token (by exact hclear) (readToken_optional hrest),
        Regex.Reading.apply_optional held hclear]
      rfl

/-! ## Reading all segments -/

section Segments

variable {fragment : Block → List Char} {part : Block → Part}

/-- Literal text without metacharacters, or a block under a name that a group may carry,
whose fragment is held as its part. -/
def Segment.Readable (fragment : Block → List Char) (part : Block → Part) : Segment → Prop
  | .literal text => ∀ c ∈ text.toList, c ∉ metacharacters
  | .block b => b.name?.all (fun name => isGroupName name.toList) = true ∧
    HeldAs (fragment b) (part b)

/-- What reading a segment adds, unless it is a block whose name is taken. -/
def Segment.readBy? (part : Block → Part) (r : Regex.Reading) :
    Segment → Option Regex.Reading
  | .literal text => some (r.addAll (text.toList.map Piece.char))
  | .block b => if b.name?.any r.names.contains then none else some (b.readBy (part b) r)

/-- No segment begins with a question mark. -/
theorem head?_textBy {segments : List Segment}
    (hliteral : ∀ text, .literal text ∈ segments → ∀ c ∈ text.toList, c ∉ metacharacters)
    {rest : List Char} (hrest : rest.head? ≠ some '?') :
    (segments.flatMap (Segment.textBy fragment) ++ rest).head? ≠ some '?' := by
  induction segments with
  | nil => exact hrest
  | cons s segments ih =>
    have htail := ih fun text ht => hliteral text (List.mem_cons_of_mem s ht)
    rw [List.flatMap_cons, List.append_assoc]
    cases s with
    | literal text =>
      have htext := hliteral text (List.mem_cons_self ..)
      show (text.toList ++ _).head? ≠ some '?'
      cases hlist : text.toList with
      | nil => exact htail
      | cons c tail =>
        intro heq
        obtain rfl : c = '?' := Option.some.inj heq
        exact htext '?' (by rw [hlist]; exact List.mem_cons_self ..) (by decide)
    | block b =>
      show some '(' ≠ some '?'
      decide

/-- Segments are read one after the other. -/
theorem readTokens_segments {segments : List Segment}
    (hreadable : ∀ s ∈ segments, s.Readable fragment part) (r : Regex.Reading)
    (hflags : r.flags = {}) {rest : List Char} (hrest : rest.head? ≠ some '?') :
    readTokens r (segments.flatMap (Segment.textBy fragment) ++ rest) =
      (segments.foldlM (Segment.readBy? part) r).bind fun r => readTokens r rest := by
  induction segments generalizing r with
  | nil => rfl
  | cons s segments ih =>
    have htail : ∀ t ∈ segments, t.Readable fragment part :=
      fun t ht => hreadable t (List.mem_cons_of_mem s ht)
    rw [List.flatMap_cons, List.append_assoc, List.foldlM_cons]
    cases s with
    | literal text =>
      have htext : ∀ c ∈ text.toList, c ∉ metacharacters := hreadable _ (List.mem_cons_self ..)
      have hclear : (r.addAll (text.toList.map Piece.char)).flags = {} := by
        rw [Regex.Reading.addAll_eq]
        exact hflags
      exact (readTokens_text text.toList _ r hflags htext).trans (ih htail _ hclear)
    | block b =>
      obtain ⟨hnamed, hheld⟩ := hreadable (.block b) (List.mem_cons_self ..)
      have hliteral : ∀ text, .literal text ∈ segments → ∀ c ∈ text.toList, c ∉ metacharacters :=
        fun text ht => htail (.literal text) ht
      refine (readTokens_block hnamed hheld r hflags _ (head?_textBy hliteral hrest)).trans ?_
      by_cases hdup : b.name?.any r.names.contains = true
      · have hstep : Segment.readBy? part r (.block b) = none := if_pos hdup
        rw [hstep, if_pos hdup]
        rfl
      · have hstep : Segment.readBy? part r (.block b) = some (b.readBy (part b) r) := if_neg hdup
        rw [hstep, if_neg hdup]
        exact ih htail _ hflags

/-- How a reading stands to the one before it when segments were read in between. -/
structure ReadBetween (part : Block → Part) (r : Regex.Reading) (segments : List Segment)
    (after : Regex.Reading) : Prop where
  flags : after.flags = r.flags
  branches : after.level.branches = r.level.branches
  exprs : after.level.pieces.reverse.map (·.expr) =
    r.level.pieces.reverse.map (·.expr) ++ segmentExprsBy part r.captures segments
  /-- Every piece was there, or it is a character or a block. -/
  depths : ∀ piece ∈ after.level.pieces, piece ∈ r.level.pieces ∨ piece.depth = 0 ∨
    ∃ b, .block b ∈ segments ∧ piece.depth = b.depthBy (part b)
  /-- No piece is lost. -/
  kept : ∀ piece ∈ r.level.pieces, piece ∈ after.level.pieces
  blocks : ∀ b, .block b ∈ segments →
    ∃ piece ∈ after.level.pieces, piece.depth = b.depthBy (part b)
  names : after.names = (namesOf segments).reverse ++ r.names
  distinct : r.names.Nodup → after.names.Nodup
  outer : after.outer = r.outer

theorem ReadBetween.refl (r : Regex.Reading) : ReadBetween part r [] r where
  flags := rfl
  branches := rfl
  exprs := by simp [segmentExprsBy]
  depths := fun _ hmem => .inl hmem
  kept := fun _ hmem => hmem
  blocks := nofun
  names := rfl
  distinct := id
  outer := rfl

theorem ReadBetween.literal {r after : Regex.Reading} {text : String}
    {rest : List Segment}
    (h : ReadBetween part (r.addAll (text.toList.map Piece.char)) rest after) :
    ReadBetween part r (.literal text :: rest) after := by
  rw [Regex.Reading.addAll_eq] at h
  refine ⟨h.flags, h.branches, ?_, ?_, ?_, ?_, h.names, h.distinct, h.outer⟩
  · rw [h.exprs]
    simp [segmentExprsBy, Piece.char, Function.comp_def]
  · intro piece hpiece
    rcases h.depths piece hpiece with hpiece | hzero | ⟨b, hb, hdepth⟩
    · rcases List.mem_append.mp hpiece with hpiece | hpiece
      · obtain ⟨c, -, rfl⟩ := List.mem_map.mp (List.mem_reverse.mp hpiece)
        exact .inr (.inl rfl)
      · exact .inl hpiece
    · exact .inr (.inl hzero)
    · exact .inr (.inr ⟨b, List.mem_cons_of_mem _ hb, hdepth⟩)
  · exact fun piece hpiece => h.kept piece (List.mem_append_right _ hpiece)
  · intro b hb
    exact h.blocks b ((List.mem_cons.mp hb).resolve_left nofun)

theorem ReadBetween.block {r after : Regex.Reading} {b : Block} {rest : List Segment}
    (hfree : ¬ b.name?.any r.names.contains = true)
    (h : ReadBetween part (b.readBy (part b) r) rest after) :
    ReadBetween part r (.block b :: rest) after := by
  refine ⟨h.flags, h.branches, ?_, ?_, ?_, ?_, ?_, ?_, h.outer⟩
  · rw [h.exprs]
    simp [segmentExprsBy, Block.readBy, Regex.Level.add]
  · intro piece hpiece
    rcases h.depths piece hpiece with hpiece | hzero | ⟨b', hb', hdepth⟩
    · rcases List.mem_cons.mp hpiece with rfl | hpiece
      · exact .inr (.inr ⟨b, List.mem_cons_self .., rfl⟩)
      · exact .inl hpiece
    · exact .inr (.inl hzero)
    · exact .inr (.inr ⟨b', List.mem_cons_of_mem _ hb', hdepth⟩)
  · exact fun piece hpiece => h.kept piece (List.mem_cons_of_mem _ hpiece)
  · intro b' hb'
    rcases List.mem_cons.mp hb' with heq | hb'
    · cases heq
      exact ⟨_, h.kept _ (List.mem_cons_self ..), rfl⟩
    · exact h.blocks b' hb'
  · rw [h.names]
    cases hname : b.name? <;> simp [namesOf, blocksOf, Segment.block?, Block.readBy, hname]
  · intro hdistinct
    apply h.distinct
    cases hname : b.name? <;> simp_all [Block.readBy]

theorem readBetween_of_foldlM {segments : List Segment} {r after : Regex.Reading}
    (h : segments.foldlM (Segment.readBy? part) r = some after) :
    ReadBetween part r segments after := by
  induction segments generalizing r with
  | nil =>
    obtain rfl : r = after := Option.some.inj h
    exact .refl r
  | cons s rest ih =>
    rw [List.foldlM_cons] at h
    obtain ⟨next, hnext, hrest⟩ := Option.bind_eq_some_iff.mp h
    cases s with
    | literal text =>
      obtain rfl : r.addAll (text.toList.map Piece.char) = next := Option.some.inj hnext
      exact (ih hrest).literal
    | block b =>
      unfold Segment.readBy? at hnext
      dsimp only at hnext
      split at hnext
      · cases hnext
      · next hfree =>
        obtain rfl : b.readBy (part b) r = next := Option.some.inj hnext
        exact (ih hrest).block hfree

/-- Segments whose names are different and not taken yet can be read. -/
theorem exists_foldlM_readBy {segments : List Segment}
    (hdistinct : (namesOf segments).Nodup)
    (r : Regex.Reading) (hfresh : ∀ name ∈ namesOf segments, name ∉ r.names) :
    ∃ after, segments.foldlM (Segment.readBy? part) r = some after := by
  induction segments generalizing r with
  | nil => exact ⟨r, rfl⟩
  | cons s rest ih =>
    rw [List.foldlM_cons]
    cases s with
    | literal text =>
      refine ih hdistinct (r.addAll _) fun name hname => ?_
      rw [Regex.Reading.addAll_eq]
      exact hfresh name hname
    | block b =>
      rw [namesOf_block, List.nodup_append] at hdistinct
      obtain ⟨-, hrest, hdisjoint⟩ := hdistinct
      have hown : ¬ b.name?.any r.names.contains = true := by
        intro htaken
        obtain ⟨name, hname, hmem⟩ := (Option.any_eq_true _ _).mp htaken
        refine hfresh name ?_ (List.contains_iff_mem.mp hmem)
        rw [namesOf_block, hname]
        exact List.mem_cons_self ..
      have hstep : Segment.readBy? part r (.block b) = some (b.readBy (part b) r) := if_neg hown
      rw [hstep]
      refine ih hrest (b.readBy (part b) r) fun name hname hmem => ?_
      rcases List.mem_append.mp hmem with hmem | hmem
      · exact hdisjoint name hmem name hname rfl
      · exact hfresh name (by rw [namesOf_block]; exact List.mem_append_right _ hname) hmem

/-- The pattern text of segments is read as the segments between two anchors. -/
theorem readTokens_patternText {segments : List Segment}
    (hreadable : ∀ s ∈ segments, s.Readable fragment part) :
    readTokens Regex.Reading.start ('^' :: segments.flatMap (Segment.textBy fragment) ++ ['$']) =
      (segments.foldlM (Segment.readBy? part) (Regex.Reading.start.add Piece.textStart)).map
        (·.add Piece.textEnd) := by
  rw [List.cons_append, readTokens_textStart, readTokens_segments hreadable _ rfl (by decide)]
  cases hfold : segments.foldlM (Segment.readBy? part)
      (Regex.Reading.start.add Piece.textStart) with
  | none => rfl
  | some after =>
    have hline : after.flags.multiLine = false := by rw [(readBetween_of_foldlM hfold).flags]; rfl
    exact readTokens_textEnd hline

/-- Between the anchors, the pieces of segments make up their expression. -/
theorem ReadBetween.concat_eq {segments : List Segment} {after : Regex.Reading}
    (h : ReadBetween part (Regex.Reading.start.add Piece.textStart) segments after) :
    Expr.concat ((after.add Piece.textEnd).level.pieces.reverse.map (·.expr)) =
      templateExprBy part segments := by
  simp [Regex.Reading.add, Regex.Level.add, h.exprs, templateExprBy, Regex.Reading.start,
    Piece.textStart, Piece.textEnd]

/-- If the pattern text of segments is an expression, then it is theirs: the
segments were read between the anchors. -/
theorem exists_readBetween [SizeLimit] {segments : List Segment}
    (hreadable : ∀ s ∈ segments, s.Readable fragment part) {e : Pattern}
    (h : Pattern.ofText? ('^' :: segments.flatMap (Segment.textBy fragment) ++ ['$']) = some e) :
    ∃ after, ReadBetween part (Regex.Reading.start.add Piece.textStart) segments after ∧
      (after.add Piece.textEnd).finish = some e ∧ e = templateExprBy part segments := by
  obtain ⟨whole, hread, hfinish⟩ := Option.bind_eq_some_iff.mp h
  rw [readTokens_patternText hreadable] at hread
  obtain ⟨after, hfold, rfl⟩ := Option.map_eq_some_iff.mp hread
  have hbetween := readBetween_of_foldlM hfold
  refine ⟨after, hbetween, hfinish, ?_⟩
  rw [Regex.Reading.expr_of_finish (by exact hbetween.branches) hfinish, hbetween.concat_eq]

end Segments

end UrlRouting
