import UrlRouting.Proofs.Template.Compiling
import UrlRouting.Proofs.Template.Passing
import UrlRouting.Regex.ProgramSize

/-!
# What a plain template matches

The expression of a plain template succeeds on a path exactly if the path can be cut
along the segments, and it reports the preferred cut. Both are shown from the right:
for the segments from some point on and the text that is left there. A walk through the
segments then adds one mark for each block that is present.

Main statement: `captures_plain`.
-/

namespace UrlRouting

open Regex

/-! ## Blocks held against a text -/

/-- The expressions of segments, held against a text. -/
def segmentPlans (text : List Char) (count : Nat) (segments : List Segment) : List Plan :=
  (segmentExprs count segments).map fun e => e.on text

theorem segmentPlans_literal (text : List Char) (count : Nat) (literal : String)
    (rest : List Segment) :
    segmentPlans text count (.literal literal :: rest) =
      literal.toList.map (fun c => (Pattern.char c).on text) ++ segmentPlans text count rest := by
  simp [segmentPlans, segmentExprs, Function.comp_def]

theorem segmentPlans_block (text : List Char) (count : Nat) (b : Block)
    (rest : List Segment) :
    segmentPlans text count (.block b :: rest) =
      (b.expr (count + 1)).on text :: segmentPlans text (count + 1) rest := rfl

/-- The leaf of the values of a block. -/
def Block.leaf (b : Block) (text : List Char) : Positions :=
  charPositions b.kind.cls.contains text

theorem Block.on_valueExpr (b : Block) (number : Nat) (text : List Char) :
    (b.valueExpr number).on text =
      .group number b.name? (Plan.run (!b.kind.isLazy) (b.leaf text)) := rfl

/-- A kind takes the texts that are not empty and made of its characters. -/
theorem ValueKind.takes_expr (k : ValueKind) (value : List Char) :
    k.expr.Takes value ↔ value ≠ [] ∧ ∀ c ∈ value, k.admits c = true := by
  have hrepeats : ∀ (value : List Char) (n : Nat),
      Repeats (Pattern.Takes (.take k.cls)) n value ↔
        value.length = n ∧ ∀ c ∈ value, k.admits c = true := by
    intro value n
    induction n generalizing value with
    | zero =>
      constructor
      · rintro rfl
        exact ⟨rfl, nofun⟩
      · rintro ⟨hlength, -⟩
        exact List.length_eq_zero_iff.mp hlength
    | succ n ih =>
      constructor
      · rintro ⟨-, rest, rfl, ⟨c, rfl, hc⟩, hrest⟩
        obtain ⟨rfl, hadmits⟩ := (ih rest).mp hrest
        rw [k.contains_cls] at hc
        exact ⟨by simp, List.forall_mem_cons.mpr ⟨hc, hadmits⟩⟩
      · rintro ⟨hlength, hadmits⟩
        cases value with
        | nil => cases hlength
        | cons c rest =>
          rw [List.forall_mem_cons] at hadmits
          refine ⟨[c], rest, rfl, ⟨c, rfl, ?_⟩, (ih rest).mpr ⟨?_, hadmits.2⟩⟩
          · rw [k.contains_cls]
            exact hadmits.1
          · exact Nat.succ.inj hlength
  show (∃ n, 1 ≤ n ∧ Repeats (Pattern.Takes (.take k.cls)) n value) ↔ _
  simp only [hrepeats]
  constructor
  · rintro ⟨n, hn, rfl, hadmits⟩
    exact ⟨List.length_pos_iff.mp hn, hadmits⟩
  · rintro ⟨hne, hadmits⟩
    exact ⟨value.length, List.length_pos_iff.mpr hne, rfl, hadmits⟩

/-- The present form of a block is its lead and then its value. -/
theorem Block.starts_present (b : Block) (number : Nat) (text : List Char)
    (ends : Positions) :
    Plan.starts ((b.presentExpr number).on text) ends =
      Plan.startsEach (b.leadText.map fun c => (Pattern.char c).on text)
        (Plan.starts ((b.valueExpr number).on text) ends) :=
  b.starts_presentBy b.kind.part number text ends

theorem Block.walk_present (b : Block) (number : Nat) (text : List Char)
    (ends : Positions) (s : Spot) :
    Plan.walk ((b.presentExpr number).on text) ends s =
      Plan.walk ((b.valueExpr number).on text) ends
        (Plan.walkThrough (b.leadText.map fun c => (Pattern.char c).on text)
          (Plan.starts ((b.valueExpr number).on text) ends) s) :=
  b.walk_presentBy b.kind.part number text ends s

theorem Block.has_starts_present (b : Block) (number : Nat) (text : List Char)
    (ends : Positions) (i : Nat) :
    (Plan.starts ((b.presentExpr number).on text) ends).has i = true ↔
      ∃ value rest, value ≠ [] ∧ (∀ c ∈ value, b.kind.admits c = true) ∧
        text.drop i = b.leadText ++ (value ++ rest) ∧
        ends.has (i + b.leadText.length + value.length) = true := by
  have hpresent := b.has_starts_presentBy b.kind.part number text ends i
  refine Iff.trans hpresent ?_
  simp only [show b.kind.part.expr = b.kind.expr from rfl, ValueKind.takes_expr, and_assoc]

/-! ## Where the rest of a template can succeed -/

theorem segmentPlansBy_plain (text : List Char) (count : Nat) (segments : List Segment) :
    segmentPlansBy (·.kind.part) text count segments = segmentPlans text count segments := by
  rw [segmentPlansBy, segmentPlans, segmentExprsBy_plain]

/-- The cuts of a plain template are those whose values are taken by the kinds of their
blocks. -/
theorem cutByParts_plain {segments : List Segment} {path : List Char}
    {values : List (Option (List Char))} :
    CutByParts (·.kind.part) segments path values ↔ Cut segments path values := by
  constructor
  · intro h
    induction h with
    | nil => exact .nil
    | literal _ ih => exact .literal ih
    | present hvalue _ ih =>
      obtain ⟨hne, hadmits⟩ := (ValueKind.takes_expr _ _).mp hvalue
      exact .present hne hadmits ih
    | absent hoptional _ ih => exact .absent hoptional ih
  · intro h
    induction h with
    | nil => exact .nil
    | literal _ ih => exact .literal ih
    | present hne hadmits _ ih =>
      exact .present ((ValueKind.takes_expr _ _).mpr ⟨hne, hadmits⟩) ih
    | absent hoptional _ ih => exact .absent hoptional ih

/-- Segments can be gone through from a position to the end of the text exactly if what
is left of the text there can be cut along them. -/
theorem has_startsEach_segments (segments : List Segment) (count : Nat) (text : List Char)
    (i : Nat) (hi : i ≤ text.length) :
    (Plan.startsEach (segmentPlans text count segments) (endPositions text)).has i = true ↔
      ∃ values, Cut segments (text.drop i) values := by
  rw [← segmentPlansBy_plain, has_startsEach_segmentsBy _ text segments count i hi]
  exact exists_congr fun values => cutByParts_plain

/-! ## The preferred way through a template -/

/-- The marks of the blocks that are present, from left to right, when the first segment
starts at a position and `count` groups stand before it. -/
def cutMarks (count position : Nat) : List Segment → List (Option (List Char)) → List Mark
  | .literal text :: rest, values =>
    cutMarks count (position + text.toList.length) rest values
  | .block b :: rest, some value :: values =>
    let start := position + b.leadText.length
    ⟨count + 1, start, start + value.length⟩ ::
      cutMarks (count + 1) (start + value.length) rest values
  | .block _ :: rest, none :: values => cutMarks (count + 1) position rest values
  | _, _ => []

/-- The preferred way through the value of a block: a piece of admitted characters that
is tried before every other one behind which the way can go on. -/
theorem Block.walk_value (b : Block) (number : Nat) (text : List Char) (ends : Positions)
    (s : Spot) (hs : (Plan.starts ((b.valueExpr number).on text) ends).has s.position = true) :
    ∃ value rest, value ≠ [] ∧ (∀ c ∈ value, b.kind.admits c = true) ∧
      text.drop s.position = value ++ rest ∧ ends.has (s.position + value.length) = true ∧
      Plan.walk ((b.valueExpr number).on text) ends s =
        ⟨s.position + value.length,
          ⟨number, s.position, s.position + value.length⟩ :: s.marks⟩ ∧
      ∀ other behind, other ≠ [] → (∀ c ∈ other, b.kind.admits c = true) →
        text.drop s.position = other ++ behind → ends.has (s.position + other.length) = true →
        other.length = value.length ∨ b.kind.Sooner (some value) (some other) := by
  rw [b.on_valueExpr] at hs ⊢
  obtain ⟨j, hwalk, hleaf, hends⟩ := Plan.walk_run (!b.kind.isLazy) (b.leaf text) ends s hs
  have hrun : Run (b.leaf text) s.position j := hends.run.cons hleaf
  obtain ⟨value, rest, hdrop, hvalue, rfl⟩ := (run_charPositions_iff _ _ _ _).mp hrun
  have hpos : s.position + 1 ≤ s.position + value.length := hends.run.1
  refine ⟨value, rest, ?_, fun c hc => ?_, hdrop, hends.ended, ?_, ?_⟩
  · rintro rfl
    exact absurd hpos (Nat.not_succ_le_self _)
  · rw [← ValueKind.contains_cls]
    exact hvalue c hc
  · rw [Plan.walk, hwalk]
  · intro other behind hne hadmits hother hended
    have hotherPos : 0 < other.length := List.length_pos_iff.mpr hne
    have hotherRun : Run (b.leaf text) s.position (s.position + other.length) :=
      (run_charPositions_iff _ _ _ _).mpr
        ⟨other, behind, hother, fun c hc => by rw [ValueKind.contains_cls]; exact hadmits c hc, rfl⟩
    rcases Nat.lt_trichotomy other.length value.length with hlt | heq | hgt
    · cases hlazy : b.kind.isLazy with
      | false => exact .inr (.longer hlazy hlt)
      | true =>
        -- a lazy run ends at the first end
        have hnot := hends.first (by rw [hlazy]; rfl) (s.position + other.length)
          (by omega) (by omega)
        rw [hended] at hnot
        cases hnot
    · exact .inl heq
    · cases hlazy : b.kind.isLazy with
      | false =>
        -- a greedy run ends at the last end
        have hnot := hends.last (by rw [hlazy]; rfl) (s.position + other.length) (by omega)
          (hotherRun.tail (by omega)).2
        rw [hended] at hnot
        cases hnot
      | true => exact .inr (.shorter hlazy hgt)

/-- The preferred way through a block that is present: its lead, and the value that is
tried before every other one behind which the way can go on. -/
theorem Block.walk_present_of_starts (b : Block) (number : Nat) (text : List Char)
    (ends : Positions) (s : Spot) (hle : s.position ≤ text.length)
    (hs : (Plan.starts ((b.presentExpr number).on text) ends).has s.position = true) :
    ∃ value start stop, value ≠ [] ∧ (∀ c ∈ value, b.kind.admits c = true) ∧
      start = s.position + b.leadText.length ∧ stop = start + value.length ∧
      text.drop s.position = b.leadText ++ (value ++ text.drop stop) ∧
      stop ≤ text.length ∧ ends.has stop = true ∧
      Plan.walk ((b.presentExpr number).on text) ends s =
        ⟨stop, ⟨number, start, stop⟩ :: s.marks⟩ ∧
      ∀ other behind, other ≠ [] → (∀ c ∈ other, b.kind.admits c = true) →
        other ++ behind = value ++ text.drop stop → ends.has (start + other.length) = true →
        other.length = value.length ∨ b.kind.Sooner (some value) (some other) := by
  rw [b.starts_present, Plan.has_startsEach_chars] at hs
  obtain ⟨tail, hlead, hvalue⟩ := hs
  obtain ⟨value, behind, hne, hadmits, hdrop, hended, hpiece, hfirst⟩ :=
    b.walk_value number text ends ⟨s.position + b.leadText.length, s.marks⟩ hvalue
  have hwhole : text.drop s.position = b.leadText ++ (value ++ behind) := by
    rw [hlead, eq_drop_of_drop_eq_append hlead, hdrop]
  obtain ⟨hbehind, hstop⟩ := Block.behind_value hle hwhole
  refine ⟨value, _, _, hne, hadmits, rfl, rfl, ?_, hstop, hended, ?_, ?_⟩
  · rw [hwhole, hbehind]
  · rw [b.walk_present, Plan.walkThrough_chars, hpiece]
  · intro other behind' hother hadmits' heq hends
    exact hfirst other behind' hother hadmits' (by rw [hdrop, hbehind, heq]) hends

/-- A block is taken if it can be present, and then before it is left out. -/
theorem Block.walk_expr (b : Block) (number : Nat) (text : List Char) (ends : Positions)
    (s : Spot) (hs : (Plan.starts ((b.expr number).on text) ends).has s.position = true) :
    Plan.walk ((b.expr number).on text) ends s =
        Plan.walk ((b.presentExpr number).on text) ends s ∧
      (Plan.starts ((b.presentExpr number).on text) ends).has s.position = true ∨
    Plan.walk ((b.expr number).on text) ends s = s ∧ b.isOptional = true ∧
      ends.has s.position = true ∧
      (Plan.starts ((b.presentExpr number).on text) ends).has s.position = false :=
  b.walk_exprBy b.kind.part number text ends s hs

/-- The preferred way through segments goes to the end of the text along the preferred
cut. The induction is on the segments; what lies behind a block decides between its
values, so the cut of the rest comes first. -/
theorem walkThrough_segments (segments : List Segment) (count : Nat) (text : List Char)
    (s : Spot) (hle : s.position ≤ text.length)
    (hs : (Plan.startsEach (segmentPlans text count segments) (endPositions text)).has
      s.position = true) :
    ∃ values, Preferred segments (text.drop s.position) values ∧
      Plan.walkThrough (segmentPlans text count segments) (endPositions text) s =
        ⟨text.length, (cutMarks count s.position segments values).reverse ++ s.marks⟩ := by
  induction segments generalizing count s with
  | nil =>
    change (endPositions text).has s.position = true at hs
    rw [has_endPositions, decide_eq_true_eq] at hs
    refine ⟨[], ?_, ?_⟩
    · rw [hs, List.drop_length]
      exact preferred_nil
    · rw [← hs]
      rfl
  | cons segment rest ih =>
    cases segment with
    | literal literal =>
      rw [segmentPlans_literal, Plan.startsEach_append, Plan.has_startsEach_chars] at hs
      obtain ⟨tail, hdrop, hrest⟩ := hs
      have hbehind := add_length_le_of_drop_eq_append hle hdrop
      obtain ⟨values, hpreferred, hwalk⟩ :=
        ih count ⟨s.position + literal.toList.length, s.marks⟩ hbehind hrest
      refine ⟨values, ?_, ?_⟩
      · rw [hdrop, eq_drop_of_drop_eq_append hdrop]
        exact preferred_literal literal hpreferred
      · rw [segmentPlans_literal, Plan.walkThrough_append, Plan.walkThrough_chars, hwalk]
        rfl
    | block b =>
      rw [segmentPlans_block, Plan.startsEach] at hs
      rw [segmentPlans_block, Plan.walkThrough]
      rcases b.walk_expr (count + 1) text _ s hs with
        ⟨hwalk, hpresent⟩ | ⟨hwalk, hoptional, hends, habsent⟩
      · obtain ⟨value, start, stop, hne, hadmits, hstart, hstop, hdrop, hstopLe, hended, hpiece,
          hfirst⟩ := b.walk_present_of_starts (count + 1) text _ s hle hpresent
        obtain ⟨values, hpreferred, hrest⟩ :=
          ih (count + 1) ⟨stop, ⟨count + 1, start, stop⟩ :: s.marks⟩ hstopLe hended
        refine ⟨some value :: values, ?_, ?_⟩
        · rw [hdrop]
          refine preferred_present hne hadmits hpreferred ?_
          intro other behind others hother hadmits' heq hcut
          have hotherDrop : text.drop s.position = b.leadText ++ (other ++ behind) := by
            rw [hdrop, heq]
          obtain ⟨hbehind, hbehindLe⟩ := Block.behind_value hle hotherDrop
          rw [hbehind] at hcut
          -- the rest can be cut behind the other value, so the way could go on there
          have hends := (has_startsEach_segments rest (count + 1) text _ hbehindLe).mpr ⟨_, hcut⟩
          exact hfirst other behind hother hadmits' heq (by rw [hstart]; exact hends)
        · rw [hwalk, hpiece, hrest, hstop, hstart]
          simp [cutMarks]
      · rw [hwalk]
        obtain ⟨values, hpreferred, hrest⟩ := ih (count + 1) s hle hends
        refine ⟨none :: values, ?_, hrest⟩
        refine preferred_absent hoptional hpreferred ?_
        intro value tail others hne hadmits hdrop hcut
        -- a value behind which the rest can be cut would let the block start here
        obtain ⟨htail, htailLe⟩ := Block.behind_value hle hdrop
        rw [htail] at hcut
        have hends' := (has_startsEach_segments rest (count + 1) text _ htailLe).mpr ⟨others, hcut⟩
        have hpresent :=
          (b.has_starts_present (count + 1) text _ _).mpr ⟨value, tail, hne, hadmits, hdrop, hends'⟩
        rw [hpresent] at habsent
        cases habsent

/-! ## What is reported -/

/-- The blocks behind a position have greater numbers than those before it. -/
theorem lt_group_of_mem_cutMarks {segments : List Segment} {count position : Nat}
    {values : List (Option (List Char))} {mark : Mark}
    (h : mark ∈ cutMarks count position segments values) : count < mark.group := by
  induction segments generalizing count position values with
  | nil => simp [cutMarks] at h
  | cons s rest ih =>
    cases s with
    | literal text => exact ih h
    | block b =>
      rcases values with - | ⟨- | value, values⟩
      · simp [cutMarks] at h
      · exact Nat.lt_of_succ_lt (ih h)
      · rcases List.mem_cons.mp h with rfl | h
        · exact Nat.lt_succ_self count
        · exact Nat.lt_of_succ_lt (ih h)

/-- Looking for the mark of a block passes over those of the blocks behind it. -/
theorem find?_cutMarks (segments : List Segment) (count position : Nat)
    (values : List (Option (List Char))) (earlier : List Mark) :
    ((cutMarks (count + 1) position segments values).reverse ++ earlier).find?
        (·.group = count + 1) = earlier.find? (·.group = count + 1) :=
  find?_mark_append (fun _ hmem => lt_group_of_mem_cutMarks (List.mem_reverse.mp hmem)) earlier

/-- What a block reports is its value under its name, by the mark of its group. -/
theorem Block.filterMap_reported (b : Block) (number : Nat) (text : List Char)
    (marks : List Mark) :
    (b.expr number).namedGroups.filterMap (reported text marks) =
      (b.namedValue ((marks.find? (·.group = number)).map fun mark =>
        (text.drop mark.start).take (mark.stop - mark.start))).toList :=
  b.filterMap_reportedBy text b.kind.part number marks

/-- The marks along a cut report the values of the named blocks that are present. -/
theorem filterMap_reported {segments : List Segment} {text : List Char}
    {count position : Nat}
    {values : List (Option (List Char))} (hcut : Cut segments (text.drop position) values)
    {earlier : List Mark} (hearlier : ∀ mark ∈ earlier, mark.group ≤ count) :
    ((segmentExprs count segments).flatMap Expr.namedGroups).filterMap
        (reported text ((cutMarks count position segments values).reverse ++ earlier)) =
      namedValues segments values := by
  induction segments generalizing count position values earlier with
  | nil => rfl
  | cons s rest ih =>
    cases s with
    | literal literal =>
      obtain ⟨tail, hdrop, hrest⟩ := cut_literal_iff.mp hcut
      rw [eq_drop_of_drop_eq_append hdrop] at hrest
      rw [segmentExprs, List.flatMap_append, flatMap_namedGroups_chars, List.nil_append,
        namedValues_literal, cutMarks]
      exact ih hrest hearlier
    | block b =>
      have hlater : ∀ mark ∈ earlier, mark.group ≤ count + 1 :=
        fun mark hmem => Nat.le_succ_of_le (hearlier mark hmem)
      rw [segmentExprs, List.flatMap_cons, List.filterMap_append, b.filterMap_reported]
      rcases cut_block_iff.mp hcut with
        ⟨value, tail, others, rfl, -, -, hdrop, hrest⟩ | ⟨others, rfl, -, hrest⟩
      · have hlead := (eq_drop_of_drop_eq_append hdrop).symm
        rw [eq_drop_of_drop_eq_append hlead] at hrest
        rw [namedValues_block, cutMarks, List.reverse_cons, List.append_assoc, find?_cutMarks]
        congr 1
        · simp [hlead]
        · refine ih hrest fun mark hmem => ?_
          rcases List.mem_cons.mp hmem with rfl | hmem
          · exact Nat.le_refl _
          · exact hlater mark hmem
      · -- no mark before the block has its number
        have hnone : earlier.find? (·.group = count + 1) = none := by
          rw [List.find?_eq_none]
          intro mark hmem heq
          have hle := hearlier mark hmem
          rw [of_decide_eq_true heq] at hle
          exact Nat.not_succ_le_self count hle
        rw [namedValues_block, cutMarks, find?_cutMarks, hnone]
        congr 1
        exact ih hrest hlater

/-! ## Captures -/

/-- The expression of a template starts at the start of the text and goes through its
segments to the end. -/
theorem search_templateExpr (segments : List Segment) (text : List Char) :
    Pattern.search (templateExpr segments) text =
      if (Plan.startsEach (segmentPlans text 0 segments) (endPositions text)).has 0 then
        let last := Plan.walkThrough (segmentPlans text 0 segments) (endPositions text) ⟨0, []⟩
        some ⟨0, last.position, last.marks⟩
      else none :=
  search_anchored (segmentExprs 0 segments) text

/-- What the expression of a template reports of a text. -/
theorem search_templateExpr_eq_some_iff (segments : List Segment) (text : List Char)
    (m : Regex.Match) :
    Pattern.search (templateExpr segments) text = some m ↔
      ∃ values, Preferred segments text values ∧
        m = ⟨0, text.length, (cutMarks 0 0 segments values).reverse⟩ := by
  have hcut := has_startsEach_segments segments 0 text 0 (Nat.zero_le _)
  rw [List.drop_zero] at hcut
  rw [search_templateExpr]
  by_cases h : (Plan.startsEach (segmentPlans text 0 segments) (endPositions text)).has 0 = true
  · obtain ⟨values, hpreferred, hwalk⟩ :=
      walkThrough_segments segments 0 text ⟨0, []⟩ (Nat.zero_le _) h
    rw [if_pos h, hwalk, List.append_nil]
    constructor
    · intro heq
      exact ⟨values, hpreferred, (Option.some.inj heq).symm⟩
    · rintro ⟨others, hothers, rfl⟩
      rw [hpreferred.unique hothers]
  · rw [if_neg h]
    constructor
    · intro heq
      cases heq
    · rintro ⟨values, hpreferred, -⟩
      exact absurd (hcut.mpr ⟨values, hpreferred.cut⟩) h

/-- A path that can be cut has a preferred cut. -/
theorem Cut.exists_preferred {segments : List Segment} {path : List Char}
    {values : List (Option (List Char))} (h : Cut segments path values) :
    ∃ best, Preferred segments path best := by
  have hstart := (has_startsEach_segments segments 0 path 0 (Nat.zero_le _)).mpr ⟨values, h⟩
  obtain ⟨best, hbest, -⟩ := walkThrough_segments segments 0 path ⟨0, []⟩ (Nat.zero_le _) hstart
  exact ⟨best, hbest⟩

/-- The parameters of a compiled plain template along a cut. -/
theorem entries_paramsOf_cutMarks {c : CompiledPattern} {segments : List Segment}
    (hexpr : c.expr = templateExpr segments) {path : List Char}
    {values : List (Option (List Char))} (hcut : Cut segments path values)
    (start stop : Nat) :
    (c.paramsOf path ⟨start, stop, (cutMarks 0 0 segments values).reverse⟩).entries =
      namedValues segments values := by
  have hgroups : c.expr.namedGroups = (segmentExprs 0 segments).flatMap Expr.namedGroups := by
    rw [hexpr, ← templateExprBy_plain, namedGroups_templateExprBy, segmentExprsBy_plain]
  have hdrop : Cut segments (path.drop 0) values := hcut
  have hnone : ∀ mark ∈ ([] : List Mark), mark.group ≤ 0 := by simp
  have hreported := filterMap_reported hdrop hnone
  rw [List.append_nil] at hreported
  rw [CompiledPattern.entries_paramsOf, hgroups]
  exact hreported

theorem captures_eq_some_iff {c : CompiledPattern} {segments : List Segment}
    (hexpr : c.expr = templateExpr segments) (path : String) (params : Params) :
    c.captures path = some params ↔
      ∃ values, Preferred segments path.toList values ∧
        params.entries = namedValues segments values := by
  unfold CompiledPattern.captures
  rw [Option.map_eq_some_iff, hexpr]
  constructor
  · rintro ⟨m, hm, rfl⟩
    obtain ⟨values, hpreferred, rfl⟩ := (search_templateExpr_eq_some_iff _ _ _).mp hm
    exact ⟨values, hpreferred, entries_paramsOf_cutMarks hexpr hpreferred.cut _ _⟩
  · rintro ⟨values, hpreferred, hentries⟩
    refine ⟨_, (search_templateExpr_eq_some_iff _ _ _).mpr ⟨values, hpreferred, rfl⟩, ?_⟩
    rw [Params.mk.injEq]
    exact (entries_paramsOf_cutMarks hexpr hpreferred.cut _ _).trans hentries.symm

theorem isSome_captures_iff {c : CompiledPattern} {segments : List Segment}
    (hexpr : c.expr = templateExpr segments) (path : String) :
    (c.captures path).isSome = true ↔ ∃ values, Cut segments path.toList values := by
  rw [Option.isSome_iff_exists]
  constructor
  · rintro ⟨params, hparams⟩
    obtain ⟨values, hpreferred, -⟩ := (captures_eq_some_iff hexpr path params).mp hparams
    exact ⟨values, hpreferred.cut⟩
  · rintro ⟨values, hcut⟩
    obtain ⟨best, hbest⟩ := hcut.exists_preferred
    exact ⟨⟨namedValues segments best⟩, (captures_eq_some_iff hexpr path _).mpr ⟨best, hbest, rfl⟩⟩

/-- A plain template matches exactly the paths that can be cut along its segments, and
its parameters are the values of the named blocks in the preferred cut. -/
theorem captures_plain [SizeLimit] {types : MatchTypes} {template : String}
    {segments : List Segment} {c : CompiledPattern} (hraw : isRaw template = false)
    (hsegments : readTemplate template = .ok segments)
    (hplain : ∀ s ∈ segments, s.Plain types)
    (hcompile : compileTemplate types template = .ok c) (path : String) :
    ((c.captures path).isSome = true ↔ ∃ values, Cut segments path.toList values) ∧
    ∀ params, c.captures path = some params ↔
      ∃ values, Preferred segments path.toList values ∧
        params.entries = namedValues segments values := by
  obtain ⟨hexpr, -⟩ := expr_of_compileTemplate hraw hsegments hplain hcompile
  exact ⟨isSome_captures_iff hexpr path, captures_eq_some_iff hexpr path⟩

/-- A name that is lazy before an optional format: the path `/notes.old.txt`
fits with the format and without it. -/
theorem captures_plain_notes :
    let template := "/[*:name].[:format]?"
    let segments : List Segment := [.block ⟨some .slash, "*", some "name", false, 0, 9⟩,
      .block ⟨some .dot, "", some "format", true, 9, 20⟩]
    let c : CompiledPattern := ⟨template, "^(?:/(?P<name>.+?))(?:\\.(?P<format>[^/\\.]+))?$",
      templateExpr segments⟩
    isRaw template = false ∧ readTemplate template = .ok segments ∧
      (∀ s ∈ segments, s.Plain .builtIn) ∧ compileTemplate .builtIn template = .ok c ∧
      ((c.captures "/notes.old.txt").isSome = true ↔
        ∃ values, Cut segments "/notes.old.txt".toList values) ∧
      ∀ params, c.captures "/notes.old.txt" = some params ↔
        ∃ values, Preferred segments "/notes.old.txt".toList values ∧
          params.entries = namedValues segments values := by
  intro template segments c
  have hraw : isRaw template = false := by decide
  have hsegments : readTemplate template = .ok segments := by decide
  have hplain : ∀ s ∈ segments, s.Plain .builtIn := by decide
  have hcompile : compileTemplate .builtIn template = .ok c :=
    compileTemplate_of_withinLimit hraw hsegments hplain (by decide) (by decide) (by decide)
  exact ⟨hraw, hsegments, hplain, hcompile,
    captures_plain hraw hsegments hplain hcompile "/notes.old.txt"⟩

end UrlRouting
