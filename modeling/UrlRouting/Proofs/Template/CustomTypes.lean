import UrlRouting.Proofs.Template.Compiling
import UrlRouting.Proofs.Template.Passing
import UrlRouting.Regex.ProgramSize

/-!
# Match types stay inside their blocks

The fragment of a match type goes into the pattern text of a template as it
stands. If it is an expression on its own and sets no flags, gives no names and
tests no positions, then a block asks for the same texts as the fragment alone
between anchors. No bar, repetition or group of the fragment reaches outside the
block, whatever the other blocks ask for.

Main statement: `captures_of_contained`.
-/

namespace UrlRouting

open Regex

/-! ## Fragments and limits -/

namespace Regex

theorem le_deepest {pieces : List Piece} {piece : Piece} (h : piece ∈ pieces) :
    piece.depth ≤ deepest pieces := by
  have hfold : ∀ (depths : List Nat) (first : Nat), first ≤ depths.foldl max first ∧
      ∀ depth ∈ depths, depth ≤ depths.foldl max first := by
    intro depths
    induction depths with
    | nil => exact fun first => ⟨Nat.le_refl first, nofun⟩
    | cons depth rest ih =>
      intro first
      obtain ⟨hfirst, hrest⟩ := ih (max first depth)
      refine ⟨Nat.le_trans (Nat.le_max_left ..) hfirst, List.forall_mem_cons.mpr ⟨?_, hrest⟩⟩
      exact Nat.le_trans (Nat.le_max_right ..) hfirst
  exact (hfold _ 0).2 _ (List.mem_map_of_mem h)

/-- A part of an alternative is not nested deeper than the whole. -/
theorem Level.depth_le_branch {l : Level} {piece : Piece} (h : piece ∈ l.pieces) :
    piece.depth ≤ l.branch.depth := by
  unfold Level.branch
  split
  · next hnil => rw [hnil] at h; cases h
  · next hone => rw [hone, List.mem_singleton] at h; rw [h]
  · exact Nat.le_trans (le_deepest h) (Nat.le_add_left ..)

theorem Pattern.PartOf.foldl_seq {e e' : Pattern} (h : PartOf e e')
    (more : List Pattern) :
    PartOf e (more.foldl Expr.seq e') := by
  induction more generalizing e' with
  | nil => exact h
  | cons next _ ih => exact ih (h.left next)

end Regex

/-- The fragment of a block, or nothing if its match type is missing. -/
def Block.fragmentIn (types : MatchTypes) (b : Block) : List Char :=
  ((types.get? b.typeName).getD "").toList

theorem get?_fragmentIn {types : MatchTypes} {segments : List Segment} {inner : List Char}
    (h : segmentsText types segments = .ok inner) {b : Block} (hb : .block b ∈ segments) :
    types.get? b.typeName = some (String.ofList (b.fragmentIn types)) := by
  have hknown := exists_segmentsText_iff.mp ⟨inner, h⟩ b (mem_blocksOf_iff.mpr hb)
  obtain ⟨fragment, hget⟩ := Option.isSome_iff_exists.mp hknown
  rw [Block.fragmentIn, hget, Option.getD_some, String.ofList_toList]

/-- A block has its fragment as a part. -/
theorem Block.partOf_exprBy (part : Part) (b : Block) (number : Nat) :
    Pattern.PartOf part.expr (b.exprBy part number) := by
  have hvalue : Pattern.PartOf part.expr (b.valueBy part number) :=
    .group number b.name? (.shift number (.refl _))
  have hpresent : Pattern.PartOf part.expr (b.presentBy part number) := by
    unfold Block.presentBy
    cases b.lead with
    | none => exact hvalue
    | some lead => exact .right _ hvalue
  unfold Block.exprBy
  split
  · exact .optional true hpresent
  · exact hpresent

theorem exists_mem_segmentExprsBy (part : Block → Part) {segments : List Segment}
    {b : Block} (hb : .block b ∈ segments) (count : Nat) :
    ∃ number, b.exprBy (part b) number ∈ segmentExprsBy part count segments := by
  induction segments generalizing count with
  | nil => cases hb
  | cons s rest ih =>
    cases s with
    | literal text =>
      have hrest : .block b ∈ rest := by simpa using hb
      obtain ⟨number, hmem⟩ := ih hrest count
      exact ⟨number, List.mem_append_right _ hmem⟩
    | block b' =>
      rcases List.mem_cons.mp hb with heq | hb
      · cases heq
        exact ⟨count + 1, List.mem_cons_self ..⟩
      · obtain ⟨number, hmem⟩ := ih hb (count + 1 + (part b').groups)
        exact ⟨number, List.mem_cons_of_mem _ hmem⟩

/-- A fragment between anchors is part of every template that has a block with it. -/
theorem partOf_templateExprBy {part : Block → Part} {segments : List Segment} {b : Block}
    (hb : .block b ∈ segments) :
    Pattern.PartOf (Expr.concat [.test .textStart, (part b).expr, .test .textEnd])
      (templateExprBy part segments) := by
  obtain ⟨number, hmem⟩ := exists_mem_segmentExprsBy part hb 0
  obtain ⟨before, behind, hexprs⟩ := List.append_of_mem hmem
  rw [templateExprBy, hexprs, List.append_assoc, List.cons_append]
  simp only [Expr.concat, List.foldl_append, List.foldl_cons, List.foldl_nil]
  have hstart := (Pattern.PartOf.refl (.test .textStart)).foldl_seq before
  exact .seq ((hstart.seq (b.partOf_exprBy (part b) number)).foldl_seq behind) (.refl _)

section

variable [SizeLimit]

/-! ## A fragment between anchors -/

/-- The pattern of a fragment between anchors is the part that the fragment is
held as. -/
theorem ofText?_rawText {text : List Char} {part : Part} (hheld : HeldAs text part)
    (hdepth : part.depth + 2 ≤ nestingLimit)
    (hroom : Pattern.WithinLimit (Expr.concat [.test .textStart, part.expr, .test .textEnd])) :
    Pattern.ofText? (rawText text) =
      some (Expr.concat [.test .textStart, part.expr, .test .textEnd]) := by
  have hopen : ∀ cs, readToken {} ('(' :: '?' :: ':' :: cs) = some (.plain {}, cs) := fun _ => rfl
  have hclear : (Regex.Reading.start.add Piece.textStart).flags = {} := rfl
  -- the reading with the group between the anchors
  obtain ⟨last, hlast⟩ : ∃ last, last = Regex.Reading.mk {} part.groups []
      ⟨none, {}, [], [Piece.textEnd, part.closed none 0, Piece.textStart]⟩ [] := ⟨_, rfl⟩
  have hread : readTokens Regex.Reading.start (rawText text) = some last := by
    have htext : rawText text = '^' :: '(' :: '?' :: ':' :: (text ++ ')' :: ['$']) := by
      simp [rawText]
    rw [htext, readTokens_textStart, readTokens_of_token hclear (hopen _)]
    show readTokens ((Regex.Reading.start.add Piece.textStart).enter none {}) _ = _
    rw [hheld.closes ['$'] rfl rfl rfl, readTokens_textEnd rfl, hlast]
    simp [Regex.Reading.add, Regex.Reading.enter, Regex.Reading.start, Regex.Level.add]
  have hdeep : ∀ piece ∈ last.level.pieces, piece.depth ≤ part.depth + 1 := by
    rw [hlast]
    simp [Piece.textStart, Piece.textEnd, Part.closed]
  have hpieces : Expr.concat (last.level.pieces.reverse.map (·.expr)) =
      Expr.concat [.test .textStart, part.expr, .test .textEnd] := by
    rw [hlast]
    simp [Piece.textStart, Piece.textEnd, Part.closed, Expr.shift_zero]
  rw [Pattern.ofText?, hread, Option.bind_some,
    finish_of_depth_le (by omega : part.depth + 1 < nestingLimit) (by rw [hlast]) (by rw [hlast])
      hdeep, hpieces, if_pos hroom]

/-- A text that fits a block: the pattern of the block's fragment between
anchors matches it. -/
def Block.Fits (types : MatchTypes) (b : Block) (value : List Char) : Prop :=
  ∃ fragment e, types.get? b.typeName = some fragment ∧
    Pattern.ofText? (rawText fragment.toList) = some e ∧
    (Pattern.search e value).isSome = true

theorem Block.fits_iff_takes {types : MatchTypes} {b : Block} {fragment : String}
    {part : Part}
    (hget : types.get? b.typeName = some fragment) (hheld : HeldAs fragment.toList part)
    (hdepth : part.depth + 2 ≤ nestingLimit)
    (hroom : Pattern.WithinLimit (Expr.concat [.test .textStart, part.expr, .test .textEnd]))
    (value : List Char) :
    b.Fits types value ↔ part.expr.Takes value := by
  have hraw := ofText?_rawText hheld hdepth hroom
  have hsearch := isSome_search_anchored part.own value
  constructor
  · rintro ⟨other, e, hother, he, hmatch⟩
    cases hget.symm.trans hother
    cases hraw.symm.trans he
    exact hsearch.mp hmatch
  · intro htakes
    exact ⟨fragment, _, hget, hraw, hsearch.mpr htakes⟩

/-! ## Templates -/

/-- A block whose name, if it has one, is one that a group may carry, and whose
fragment is an expression on its own, without flags, names and assertions. -/
structure Block.Contained (types : MatchTypes) (b : Block) : Prop where
  named : b.name?.all (fun name => isGroupName name.toList) = true
  contained : ∀ fragment, types.get? b.typeName = some fragment →
    Regex.Contained fragment.toList
  accepted : ∀ fragment, types.get? b.typeName = some fragment →
    (Pattern.ofText? fragment.toList).isSome = true

/-- Literal text without metacharacters, or a block with a contained fragment. -/
def Segment.Contained (types : MatchTypes) : Segment → Prop
  | .literal text => ∀ c ∈ text.toList, c ∉ metacharacters
  | .block b => b.Contained types

section Templates

variable {types : MatchTypes} {segments : List Segment}

/-- The fragments of contained segments are held as parts. -/
theorem exists_parts (hcontained : ∀ s ∈ segments, s.Contained types) {inner : List Char}
    (h : segmentsText types segments = .ok inner) :
    ∃ part : Block → Part, ∀ s ∈ segments, s.Readable (Block.fragmentIn types) part := by
  have hpart : ∀ b : Block, ∃ part : Part, .block b ∈ segments →
      HeldAs (b.fragmentIn types) part := by
    intro b
    by_cases hb : .block b ∈ segments
    · have hblock : b.Contained types := hcontained _ hb
      have hget := get?_fragmentIn h hb
      have haccepted := hblock.accepted _ hget
      have htext := hblock.contained _ hget
      rw [String.toList_ofList] at haccepted htext
      obtain ⟨e, he⟩ := Option.isSome_iff_exists.mp haccepted
      obtain ⟨part, -, hheld⟩ := exists_heldAs htext he
      exact ⟨part, fun _ => hheld⟩
    · exact ⟨⟨.empty, 0, 0, trivial⟩, fun hmem => absurd hmem hb⟩
  choose part hheld using hpart
  refine ⟨part, fun s hs => ?_⟩
  cases s with
  | literal text => exact hcontained _ hs
  | block b => exact ⟨Block.Contained.named (hcontained _ hs), hheld b hs⟩

/-- What a template of contained segments compiles to, and that its parts are within the
limits. -/
theorem expr_of_readable {template : String} {c : CompiledPattern} {part : Block → Part}
    (hraw : isRaw template = false) (hsegments : readTemplate template = .ok segments)
    (hcompile : compileTemplate types template = .ok c)
    (hreadable : ∀ s ∈ segments, s.Readable (Block.fragmentIn types) part) :
    c.expr = templateExprBy part segments ∧
      ∀ b, .block b ∈ segments → (part b).depth + 2 ≤ nestingLimit ∧
        Pattern.WithinLimit
          (Expr.concat [.test .textStart, (part b).expr, .test .textEnd]) := by
  obtain ⟨inner, hinner, he⟩ := exists_inner_of_compileTemplate hraw hsegments hcompile
  cases (segmentsText_textBy fun b hb => get?_fragmentIn hinner hb).symm.trans hinner
  obtain ⟨after, hbetween, hfinish, hexpr⟩ := exists_readBetween hreadable he
  refine ⟨hexpr, fun b hb => ?_⟩
  obtain ⟨-, hnested, hroom, -⟩ := Regex.Reading.finish_eq_some_iff.mp hfinish
  constructor
  · obtain ⟨piece, hpiece, hdepth⟩ := hbetween.blocks b hb
    rw [Regex.Level.body_of_branches_eq_nil (by exact hbetween.branches)] at hnested
    have hle := Regex.Level.depth_le_branch
      (show piece ∈ (after.add Piece.textEnd).level.pieces from List.mem_cons_of_mem _ hpiece)
    rw [hdepth] at hle
    have hown : (part b).depth + 2 ≤ b.depthBy (part b) := by
      unfold Block.depthBy
      omega
    exact Nat.le_trans hown (Nat.le_trans hle hnested)
  · rw [hexpr] at hroom
    exact hroom.part (partOf_templateExprBy hb)

/-- What a template of contained segments matches: the paths that can be cut along the
segments, each block with a text that its fragment matches alone. The parameters are the
values of the named blocks in one of these cuts. -/
theorem captures_of_contained {template : String} {c : CompiledPattern}
    (hraw : isRaw template = false) (hsegments : readTemplate template = .ok segments)
    (hcontained : ∀ s ∈ segments, s.Contained types)
    (hcompile : compileTemplate types template = .ok c) (path : String) :
    (c.isMatch path = true ↔ ∃ values, CutBy (Block.Fits types) segments path.toList values) ∧
    (c.isMatch path = true → ∃ params values, c.captures path = some params ∧
      CutBy (Block.Fits types) segments path.toList values ∧
      params.entries = namedValues segments values) := by
  obtain ⟨inner, hinner, -⟩ := exists_inner_of_compileTemplate hraw hsegments hcompile
  obtain ⟨part, hreadable⟩ := exists_parts hcontained hinner
  obtain ⟨hexpr, hlimits⟩ := expr_of_readable hraw hsegments hcompile hreadable
  -- what the part of a block takes is what its fragment matches alone
  have hfits : ∀ b value, .block b ∈ segments →
      (b.Fits types value ↔ (part b).expr.Takes value) := by
    intro b value hb
    have hget := get?_fragmentIn hinner hb
    obtain ⟨-, hheld⟩ := hreadable _ hb
    obtain ⟨hdepth, hroom⟩ := hlimits b hb
    refine Block.fits_iff_takes hget ?_ hdepth hroom value
    rwa [String.toList_ofList]
  have hcuts : ∀ values, CutByParts part segments path.toList values ↔
      CutBy (Block.Fits types) segments path.toList values := fun values =>
    ⟨fun h => h.imp fun b value hb => (hfits b value hb).mpr,
      fun h => h.imp fun b value hb => (hfits b value hb).mp⟩
  have hstart := has_startsEach_segmentsBy part path.toList segments 0 0 (Nat.zero_le _)
  rw [List.drop_zero] at hstart
  have hsearch := search_templateExprBy part path.toList segments
  rw [← hexpr] at hsearch
  have hmatch : c.isMatch path = true ↔
      (Plan.startsEach (segmentPlansBy part path.toList 0 segments)
        (endPositions path.toList)).has 0 = true := by
    rw [CompiledPattern.isMatch, hsearch]
    split
    · next h => exact ⟨fun _ => h, fun _ => rfl⟩
    · next h => exact ⟨nofun, fun hhas => absurd hhas h⟩
  refine ⟨?_, fun h => ?_⟩
  · rw [hmatch, hstart]
    exact exists_congr hcuts
  · rw [hmatch] at h
    obtain ⟨values, later, hcut, hmarks, -, hreported⟩ :=
      walkThrough_segmentsBy part path.toList segments 0 ⟨0, []⟩ (Nat.zero_le _) h nofun
    rw [if_pos h] at hsearch
    refine ⟨_, values, by rw [CompiledPattern.captures, hsearch]; rfl, (hcuts values).mp hcut, ?_⟩
    rw [CompiledPattern.entries_paramsOf, hexpr, namedGroups_templateExprBy, ← hreported]
    exact congrArg (fun marks => List.filterMap (reported path.toList marks) _) hmarks

end Templates

end

/-- The fragments of the built-in types are contained. -/
theorem ValueKind.contained (k : ValueKind) : Regex.Contained k.fragment.toList := by
  rw [toList_fragment]
  refine .token (k.readToken_classText _) rfl ?_
  cases k <;> exact .token rfl rfl .nil

/-- A block for one of two words, in front of an optional format: the bar
between the words does not end the pattern. -/
theorem captures_of_contained_pets :
    let types := MatchTypes.builtIn.extend [("kind", "cat|dogs?")]
    let template := "/pets/[kind:kind].[:format]?"
    let segments : List Segment := [.literal "/pets",
      .block ⟨some .slash, "kind", some "kind", false, 5, 17⟩,
      .block ⟨some .dot, "", some "format", true, 17, 28⟩]
    ∃ c, isRaw template = false ∧ readTemplate template = .ok segments ∧
      (∀ s ∈ segments, s.Contained types) ∧ compileTemplate types template = .ok c ∧
      (c.isMatch "/pets/dogs.json" = true ↔
        ∃ values, CutBy (Block.Fits types) segments "/pets/dogs.json".toList values) ∧
      (c.isMatch "/pets/dogs.json" = true → ∃ params values,
        c.captures "/pets/dogs.json" = some params ∧
        CutBy (Block.Fits types) segments "/pets/dogs.json".toList values ∧
        params.entries = namedValues segments values) := by
  intro types template segments
  have hraw : isRaw template = false := by decide
  have hsegments : readTemplate template = .ok segments := by decide
  have hwords : Regex.Contained "cat|dogs?".toList :=
    .token rfl rfl (.token rfl rfl (.token rfl rfl (.token rfl rfl (.token rfl rfl
      (.token rfl rfl (.token rfl rfl (.token rfl rfl (.token rfl rfl .nil))))))))
  have hkind : ∀ fragment, types.get? "kind" = some fragment → fragment = "cat|dogs?" := by
    intro fragment h
    exact (Option.some.inj ((by decide : types.get? "kind" = some "cat|dogs?").symm.trans h)).symm
  have hformat : ∀ fragment, types.get? "" = some fragment →
      fragment = ValueKind.component.fragment := by
    intro fragment h
    exact (Option.some.inj ((by decide : types.get? "" =
      some ValueKind.component.fragment).symm.trans h)).symm
  have hcontained : ∀ s ∈ segments, s.Contained types := by
    have hliteral : ∀ c ∈ "/pets".toList, c ∉ metacharacters := by simp [metacharacters]
    refine List.forall_mem_cons.mpr ⟨hliteral, List.forall_mem_cons.mpr ⟨⟨by decide, ?_, ?_⟩,
      List.forall_mem_cons.mpr ⟨⟨by decide, ?_, ?_⟩, List.forall_mem_nil _⟩⟩⟩
    · intro fragment h
      rw [hkind fragment h]
      exact hwords
    · intro fragment h
      rw [hkind fragment h]
      decide +kernel
    · intro fragment h
      rw [hformat fragment h]
      exact ValueKind.component.contained
    · intro fragment h
      rw [hformat fragment h]
      decide +kernel
  have hcompiles : (compileTemplate types template).isOk = true := by decide +kernel
  obtain ⟨c, hcompile⟩ := exists_of_isOk_compileTemplate hcompiles
  exact ⟨c, hraw, hsegments, hcontained, hcompile,
    captures_of_contained hraw hsegments hcontained hcompile "/pets/dogs.json"⟩

end UrlRouting
