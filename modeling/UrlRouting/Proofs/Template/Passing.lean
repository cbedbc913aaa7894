import UrlRouting.Pattern.Compiled
import UrlRouting.Proofs.Regex.Language
import UrlRouting.Proofs.Regex.Numbering
import UrlRouting.Proofs.Template.Parts

/-!
# Going through a template

The expression of a template goes through a path along a cut of the path, with
one piece for each segment: a literal takes itself, and a block takes its lead
and a text that its part takes, or nothing if it is optional. Each block marks
its own value, whatever groups the parts of the blocks have, because no two
blocks share a number.

Main statements: `has_startsEach_segmentsBy` and `walkThrough_segmentsBy`.
-/

namespace UrlRouting

open Regex

/-! ## Cuts -/

/-- A path cut along segments, with the value of each block or `none` where the block is
left out. `fits` tells which texts are values of a block. -/
inductive CutBy (fits : Block → List Char → Prop) :
    List Segment → List Char → List (Option (List Char)) → Prop
  | nil : CutBy fits [] [] []
  | literal {text : String} {rest : List Segment} {path : List Char}
      {values : List (Option (List Char))} (hrest : CutBy fits rest path values) :
      CutBy fits (.literal text :: rest) (text.toList ++ path) values
  | present {b : Block} {rest : List Segment} {value path : List Char}
      {values : List (Option (List Char))} (hvalue : fits b value)
      (hrest : CutBy fits rest path values) :
      CutBy fits (.block b :: rest) (b.leadText ++ (value ++ path)) (some value :: values)
  | absent {b : Block} {rest : List Segment} {path : List Char}
      {values : List (Option (List Char))} (hoptional : b.isOptional = true)
      (hrest : CutBy fits rest path values) :
      CutBy fits (.block b :: rest) path (none :: values)

theorem CutBy.imp {fits fits' : Block → List Char → Prop} {segments : List Segment}
    {path : List Char} {values : List (Option (List Char))}
    (hcut : CutBy fits segments path values)
    (h : ∀ b value, .block b ∈ segments → fits b value → fits' b value) :
    CutBy fits' segments path values := by
  induction hcut with
  | nil => exact .nil
  | literal _ ih => exact .literal (ih fun b value hb => h b value (List.mem_cons_of_mem _ hb))
  | present hvalue _ ih =>
    refine .present (h _ _ (List.mem_cons_self ..) hvalue) ?_
    exact ih fun b value hb => h b value (List.mem_cons_of_mem _ hb)
  | absent hoptional _ ih =>
    exact .absent hoptional (ih fun b value hb => h b value (List.mem_cons_of_mem _ hb))

section

variable {fits : Block → List Char → Prop} {b : Block} {text : String} {rest : List Segment}
  {path : List Char} {values : List (Option (List Char))}

theorem cutBy_nil_iff : CutBy fits [] path values ↔ path = [] ∧ values = [] := by
  constructor
  · rintro ⟨⟩
    exact ⟨rfl, rfl⟩
  · rintro ⟨rfl, rfl⟩
    exact .nil

theorem cutBy_literal_iff :
    CutBy fits (.literal text :: rest) path values ↔
      ∃ tail, path = text.toList ++ tail ∧ CutBy fits rest tail values := by
  constructor
  · intro h
    cases h with
    | literal hrest => exact ⟨_, rfl, hrest⟩
  · rintro ⟨tail, rfl, hrest⟩
    exact .literal hrest

theorem cutBy_block_iff :
    CutBy fits (.block b :: rest) path values ↔
      (∃ value tail others, values = some value :: others ∧ fits b value ∧
        path = b.leadText ++ (value ++ tail) ∧ CutBy fits rest tail others) ∨
      (∃ others, values = none :: others ∧ b.isOptional = true ∧ CutBy fits rest path others) := by
  constructor
  · intro h
    cases h with
    | present hvalue hrest => exact .inl ⟨_, _, _, rfl, hvalue, rfl, hrest⟩
    | absent hoptional hrest => exact .inr ⟨_, rfl, hoptional, hrest⟩
  · rintro (⟨value, tail, others, rfl, hvalue, rfl, hrest⟩ | ⟨others, rfl, hoptional, hrest⟩)
    · exact .present hvalue hrest
    · exact .absent hoptional hrest

end

/-! ## A block held against a text -/

section Blocks

variable (part : Part) (b : Block) (number : Nat) (text : List Char) (ends : Positions)

/-- A value may end at `i + value.length` if it is the next piece of the text. -/
theorem Block.has_starts_valueBy (i : Nat) :
    (Plan.starts ((b.valueBy part number).on text) ends).has i = true ↔
      ∃ value rest, part.expr.Takes value ∧ text.drop i = value ++ rest ∧
        ends.has (i + value.length) = true := by
  have hown : (part.expr.shift number).All (fun _ _ => True) fun _ => False :=
    Expr.All.shift (part.own.mono fun _ _ _ => trivial)
  show (Plan.starts (Pattern.on (part.expr.shift number) text) ends).has i = true ↔ _
  rw [Plan.has_starts]
  simp only [reaches_iff_takes hown]
  constructor
  · rintro ⟨_, ⟨value, rest, hdrop, rfl, htakes⟩, hends⟩
    exact ⟨value, rest, (Pattern.takes_shift ..).mp htakes, hdrop, hends⟩
  · rintro ⟨value, rest, htakes, hdrop, hends⟩
    exact ⟨_, ⟨value, rest, hdrop, rfl, (Pattern.takes_shift ..).mpr htakes⟩, hends⟩

/-- The present form of a block is its lead and then its value. -/
theorem Block.starts_presentBy :
    Plan.starts ((b.presentBy part number).on text) ends =
      Plan.startsEach (b.leadText.map fun c => (Pattern.char c).on text)
        (Plan.starts ((b.valueBy part number).on text) ends) := by
  unfold Block.presentBy Block.leadText
  cases b.lead <;> rfl

theorem Block.walk_presentBy (s : Spot) :
    Plan.walk ((b.presentBy part number).on text) ends s =
      Plan.walk ((b.valueBy part number).on text) ends
        (Plan.walkThrough (b.leadText.map fun c => (Pattern.char c).on text)
          (Plan.starts ((b.valueBy part number).on text) ends) s) := by
  unfold Block.presentBy Block.leadText
  cases b.lead <;> rfl

theorem Block.has_starts_presentBy (i : Nat) :
    (Plan.starts ((b.presentBy part number).on text) ends).has i = true ↔
      ∃ value rest, part.expr.Takes value ∧ text.drop i = b.leadText ++ (value ++ rest) ∧
        ends.has (i + b.leadText.length + value.length) = true := by
  rw [b.starts_presentBy, Plan.has_startsEach_chars]
  constructor
  · rintro ⟨tail, hlead, hvalue⟩
    obtain ⟨value, rest, htakes, hdrop, hends⟩ := (b.has_starts_valueBy _ _ _ _ _).mp hvalue
    refine ⟨value, rest, htakes, ?_, hends⟩
    rw [hlead, eq_drop_of_drop_eq_append hlead, hdrop]
  · rintro ⟨value, rest, htakes, hdrop, hends⟩
    refine ⟨value ++ rest, hdrop, (b.has_starts_valueBy _ _ _ _ _).mpr ?_⟩
    exact ⟨value, rest, htakes, (eq_drop_of_drop_eq_append hdrop).symm, hends⟩

/-- The positions at which a block may start: where it may be present, and, if it is
optional, wherever the rest may start. -/
theorem Block.has_starts_exprBy (i : Nat) :
    (Plan.starts ((b.exprBy part number).on text) ends).has i = true ↔
      (Plan.starts ((b.presentBy part number).on text) ends).has i = true ∨
        (b.isOptional = true ∧ ends.has i = true) := by
  unfold Block.exprBy
  cases b.isOptional with
  | false => simp
  | true =>
    show Positions.has (ends ||| Plan.starts ((b.presentBy part number).on text) ends) i = true ↔ _
    rw [Positions.has_or, Bool.or_eq_true]
    simp [or_comm]

/-- A block is taken if it can be present, and then before it is left out. -/
theorem Block.walk_exprBy (s : Spot)
    (hs : (Plan.starts ((b.exprBy part number).on text) ends).has s.position = true) :
    Plan.walk ((b.exprBy part number).on text) ends s =
        Plan.walk ((b.presentBy part number).on text) ends s ∧
      (Plan.starts ((b.presentBy part number).on text) ends).has s.position = true ∨
    Plan.walk ((b.exprBy part number).on text) ends s = s ∧ b.isOptional = true ∧
      ends.has s.position = true ∧
      (Plan.starts ((b.presentBy part number).on text) ends).has s.position = false := by
  have hor := (b.has_starts_exprBy part number text ends s.position).mp hs
  unfold Block.exprBy
  cases hoptional : b.isOptional with
  | false =>
    rw [hoptional] at hor
    exact .inl ⟨rfl, hor.resolve_right (by simp)⟩
  | true =>
    rw [if_pos rfl]
    show Plan.walk (Plan.optional ((b.presentBy part number).on text)) ends s = _ ∧ _ ∨
      Plan.walk (Plan.optional ((b.presentBy part number).on text)) ends s = _ ∧ _
    rw [Plan.walk_optional]
    by_cases hpresent :
        (Plan.starts ((b.presentBy part number).on text) ends).has s.position = true
    · rw [if_pos hpresent]
      exact .inl ⟨rfl, hpresent⟩
    · rw [if_neg hpresent]
      exact .inr ⟨rfl, rfl, (hor.resolve_left hpresent).2, Bool.eq_false_iff.mpr hpresent⟩

/-- The preferred way through a block that is present marks its value, and
before that only groups of its part. -/
theorem Block.exists_walk_presentBy (s : Spot)
    (hs : (Plan.starts ((b.presentBy part number).on text) ends).has s.position = true) :
    ∃ value rest inner, part.expr.Takes value ∧
      text.drop s.position = b.leadText ++ (value ++ rest) ∧
      ends.has (s.position + b.leadText.length + value.length) = true ∧
      (∀ mark ∈ inner, number < mark.group ∧ mark.group ≤ number + part.groups) ∧
      Plan.walk ((b.presentBy part number).on text) ends s =
        ⟨s.position + b.leadText.length + value.length,
          ⟨number, s.position + b.leadText.length,
            s.position + b.leadText.length + value.length⟩ :: (inner ++ s.marks)⟩ := by
  rw [b.starts_presentBy, Plan.has_startsEach_chars] at hs
  obtain ⟨tail, hlead, hvalue⟩ := hs
  have hgroups : (part.expr.shift number).All
      (fun group _ => number < group ∧ group ≤ number + part.groups) fun _ => False :=
    Expr.All.shift (part.own.mono fun group _ hown => ⟨by omega, by omega⟩)
  have hplan : (Pattern.on (part.expr.shift number) text).All
      (fun group _ => number < group ∧ group ≤ number + part.groups) fun _ => True :=
    hgroups.map nofun
  obtain ⟨hway, hends⟩ := Plan.walk_sound (Pattern.on (part.expr.shift number) text) ends
    ⟨s.position + b.leadText.length, s.marks⟩ hvalue
  obtain ⟨added, hadded, hmarks⟩ := hway.setsMarks
  obtain ⟨value, rest, hdrop, hlength, htakes⟩ := (reaches_iff_takes hgroups _ _ _).mp hway.reaches
  refine ⟨value, rest, added, (Pattern.takes_shift ..).mp htakes, ?_, ?_, ?_, ?_⟩
  · rw [hlead, eq_drop_of_drop_eq_append hlead, hdrop]
  · rw [hlength]
    exact hends
  · intro mark hmem
    obtain ⟨group, hgroup, hnumber, -⟩ := (hmarks mark hmem).taken
    exact hnumber ▸ hplan.of_mem_groups hgroup
  · rw [b.walk_presentBy, Plan.walkThrough_chars]
    show Plan.walk (.group number b.name? (Pattern.on (part.expr.shift number) text)) ends _ = _
    rw [Plan.walk, hlength]
    exact congrArg (fun marks => Spot.mk _ (_ :: marks)) hadded

/-- What stands behind the value of a block that is present. -/
theorem Block.behind_value {b : Block} {text value tail : List Char} {i : Nat}
    (hi : i ≤ text.length) (h : text.drop i = b.leadText ++ (value ++ tail)) :
    tail = text.drop (i + b.leadText.length + value.length) ∧
      i + b.leadText.length + value.length ≤ text.length := by
  have hlead := (eq_drop_of_drop_eq_append h).symm
  have hle := add_length_le_of_drop_eq_append hi h
  exact ⟨eq_drop_of_drop_eq_append hlead, add_length_le_of_drop_eq_append hle hlead⟩

end Blocks

/-! ## Where the rest of a template can succeed -/

section Segments

variable (part : Block → Part) (text : List Char)

/-- The expressions of segments, held against a text. -/
def segmentPlansBy (count : Nat) (segments : List Segment) : List Plan :=
  (segmentExprsBy part count segments).map fun e => e.on text

theorem segmentPlansBy_literal (count : Nat) (literal : String) (rest : List Segment) :
    segmentPlansBy part text count (.literal literal :: rest) =
      literal.toList.map (fun c => (Pattern.char c).on text) ++
        segmentPlansBy part text count rest := by
  simp [segmentPlansBy, segmentExprsBy, Function.comp_def]

theorem segmentPlansBy_block (count : Nat) (b : Block) (rest : List Segment) :
    segmentPlansBy part text count (.block b :: rest) =
      (b.exprBy (part b) (count + 1)).on text ::
        segmentPlansBy part text (count + 1 + (part b).groups) rest := rfl

/-- The cuts of a path whose values are taken by the parts of their blocks. -/
abbrev CutByParts (segments : List Segment) (path : List Char)
    (values : List (Option (List Char))) : Prop :=
  CutBy (fun b value => (part b).expr.Takes value) segments path values

/-- Segments can be gone through from a position to the end of the text exactly
if what is left of the text there can be cut along them. -/
theorem has_startsEach_segmentsBy (segments : List Segment) (count i : Nat)
    (hi : i ≤ text.length) :
    (Plan.startsEach (segmentPlansBy part text count segments) (endPositions text)).has i = true ↔
      ∃ values, CutByParts part segments (text.drop i) values := by
  induction segments generalizing count i with
  | nil =>
    show (endPositions text).has i = true ↔ _
    rw [has_endPositions, decide_eq_true_eq]
    constructor
    · rintro rfl
      exact ⟨[], by rw [List.drop_length]; exact .nil⟩
    · rintro ⟨values, hcut⟩
      obtain ⟨hnil, -⟩ := cutBy_nil_iff.mp hcut
      have := List.drop_eq_nil_iff.mp hnil
      omega
  | cons s rest ih =>
    cases s with
    | literal literal =>
      rw [segmentPlansBy_literal, Plan.startsEach_append, Plan.has_startsEach_chars]
      constructor
      · rintro ⟨tail, hdrop, hrest⟩
        have hle := add_length_le_of_drop_eq_append hi hdrop
        obtain ⟨values, hcut⟩ := (ih count _ hle).mp hrest
        refine ⟨values, ?_⟩
        rw [hdrop, eq_drop_of_drop_eq_append hdrop]
        exact .literal hcut
      · rintro ⟨values, hcut⟩
        obtain ⟨tail, hdrop, hrest⟩ := cutBy_literal_iff.mp hcut
        have hle := add_length_le_of_drop_eq_append hi hdrop
        rw [eq_drop_of_drop_eq_append hdrop] at hrest
        exact ⟨tail, hdrop, (ih count _ hle).mpr ⟨values, hrest⟩⟩
    | block b =>
      rw [segmentPlansBy_block, Plan.startsEach, b.has_starts_exprBy, b.has_starts_presentBy]
      constructor
      · rintro (⟨value, tail, htakes, hdrop, hrest⟩ | ⟨hoptional, hrest⟩)
        · obtain ⟨htail, hle⟩ := Block.behind_value hi hdrop
          obtain ⟨values, hcut⟩ := (ih _ _ hle).mp hrest
          rw [hdrop, htail]
          exact ⟨some value :: values, .present htakes hcut⟩
        · obtain ⟨values, hcut⟩ := (ih _ i hi).mp hrest
          exact ⟨none :: values, .absent hoptional hcut⟩
      · rintro ⟨values, hcut⟩
        rcases cutBy_block_iff.mp hcut with
          ⟨value, tail, others, -, htakes, hdrop, hrest⟩ | ⟨others, -, hoptional, hrest⟩
        · obtain ⟨htail, hle⟩ := Block.behind_value hi hdrop
          rw [htail] at hrest
          exact .inl ⟨value, tail, htakes, hdrop, (ih _ _ hle).mpr ⟨others, hrest⟩⟩
        · exact .inr ⟨hoptional, (ih _ i hi).mpr ⟨others, hrest⟩⟩

/-! ## What is reported -/

/-- What a named group took, by the marks of a way. -/
def reported (marks : List Mark) (group : Nat × String) : Option (String × String) :=
  (marks.find? (·.group = group.1)).map fun mark =>
    (group.2, String.ofList ((text.drop mark.start).take (mark.stop - mark.start)))

theorem CompiledPattern.entries_paramsOf (c : CompiledPattern) (path : List Char)
    (m : Regex.Match) :
    (c.paramsOf path m).entries = c.expr.namedGroups.filterMap (reported path m.marks) := by
  unfold CompiledPattern.paramsOf Match.group? reported
  simp only [Option.map_map]
  rfl

theorem flatMap_namedGroups_chars (cs : List Char) :
    (cs.map Pattern.char).flatMap Expr.namedGroups = [] := by
  rw [List.flatMap_eq_nil_iff]
  intro e he
  obtain ⟨c, _, rfl⟩ := List.mem_map.mp he
  rfl

/-- The groups of a part have no names, so a block names at most its own group. -/
theorem Block.namedGroups_exprBy (own : Part) (b : Block) (number : Nat) :
    (b.exprBy own number).namedGroups = (b.name?.map (number, ·)).toList := by
  have hinner : (own.expr.shift number).namedGroups = [] := by
    have hunnamed : (own.expr.shift number).All (fun _ name => name = none) fun _ => False :=
      Expr.All.shift (own.own.mono fun _ _ h => h.1)
    refine List.eq_nil_iff_forall_not_mem.mpr fun group hmem => ?_
    cases hunnamed.of_mem_namedGroups hmem
  unfold Block.exprBy Block.presentBy
  cases b.isOptional <;> cases b.lead <;>
    simp [Expr.namedGroups, Block.valueBy, hinner, Pattern.char]

/-- The groups of a template are those of its blocks. -/
theorem namedGroups_templateExprBy (segments : List Segment) :
    (templateExprBy part segments).namedGroups =
      (segmentExprsBy part 0 segments).flatMap Expr.namedGroups := by
  rw [templateExprBy, Expr.namedGroups_concat, List.flatMap_cons, List.flatMap_append]
  simp [Expr.namedGroups]

/-- Each group has the name of its block. -/
theorem map_namedGroups_segmentExprsBy (count : Nat) (segments : List Segment) :
    ((segmentExprsBy part count segments).flatMap Expr.namedGroups).map (·.2) =
      namesOf segments := by
  induction segments generalizing count with
  | nil => rfl
  | cons s rest ih =>
    cases s with
    | literal text =>
      rw [segmentExprsBy, List.flatMap_append, flatMap_namedGroups_chars, List.nil_append, ih]
      rfl
    | block b =>
      rw [segmentExprsBy, List.flatMap_cons, List.map_append, ih, namesOf_block,
        b.namedGroups_exprBy]
      cases b.name? <;> rfl

/-- What a block reports is its value under its name, by the mark of its group. -/
theorem Block.filterMap_reportedBy (own : Part) (b : Block) (number : Nat)
    (marks : List Mark) :
    (b.exprBy own number).namedGroups.filterMap (reported text marks) =
      (b.namedValue ((marks.find? (·.group = number)).map fun mark =>
        (text.drop mark.start).take (mark.stop - mark.start))).toList := by
  rw [b.namedGroups_exprBy]
  unfold Block.namedValue
  cases b.name? with
  | none => rfl
  | some name =>
    cases hfind : marks.find? (·.group = number) with
    | none => simp [reported, hfind]
    | some mark => simp [reported, hfind]

/-- Looking for the mark of a block passes over those of the blocks behind it. -/
theorem find?_mark_append {number : Nat} {later : List Mark}
    (hlater : ∀ mark ∈ later, number < mark.group) (earlier : List Mark) :
    (later ++ earlier).find? (·.group = number) = earlier.find? (·.group = number) := by
  rw [List.find?_append, List.find?_eq_none.mpr, Option.none_or]
  intro mark hmem heq
  have hlt := hlater mark hmem
  rw [of_decide_eq_true heq] at hlt
  exact Nat.lt_irrefl _ hlt

/-- The preferred way through segments goes along a cut to the end of the text,
and its marks report the values of the cut. All its marks are of groups behind
the first `count`. -/
theorem walkThrough_segmentsBy (segments : List Segment) (count : Nat) (s : Spot)
    (hle : s.position ≤ text.length)
    (hs : (Plan.startsEach (segmentPlansBy part text count segments) (endPositions text)).has
      s.position = true)
    (hearlier : ∀ mark ∈ s.marks, mark.group ≤ count) :
    ∃ values later, CutByParts part segments (text.drop s.position) values ∧
      (Plan.walkThrough (segmentPlansBy part text count segments) (endPositions text) s).marks =
        later ++ s.marks ∧
      (∀ mark ∈ later, count < mark.group) ∧
      ((segmentExprsBy part count segments).flatMap Expr.namedGroups).filterMap
        (reported text (later ++ s.marks)) = namedValues segments values := by
  induction segments generalizing count s with
  | nil =>
    change (endPositions text).has s.position = true at hs
    rw [has_endPositions, decide_eq_true_eq] at hs
    refine ⟨[], [], ?_, rfl, nofun, rfl⟩
    rw [hs, List.drop_length]
    exact .nil
  | cons segment rest ih =>
    cases segment with
    | literal literal =>
      rw [segmentPlansBy_literal, Plan.startsEach_append, Plan.has_startsEach_chars] at hs
      obtain ⟨tail, hdrop, hrest⟩ := hs
      have hbehind := add_length_le_of_drop_eq_append hle hdrop
      obtain ⟨values, later, hcut, hmarks, hlater, hreported⟩ :=
        ih count ⟨s.position + literal.toList.length, s.marks⟩ hbehind hrest hearlier
      refine ⟨values, later, ?_, ?_, hlater, ?_⟩
      · rw [hdrop, eq_drop_of_drop_eq_append hdrop]
        exact .literal hcut
      · rw [segmentPlansBy_literal, Plan.walkThrough_append, Plan.walkThrough_chars]
        exact hmarks
      · rw [segmentExprsBy, List.flatMap_append, flatMap_namedGroups_chars, List.nil_append,
          namedValues_literal]
        exact hreported
    | block b =>
      rw [segmentPlansBy_block, Plan.startsEach] at hs
      rw [segmentPlansBy_block, Plan.walkThrough, segmentExprsBy, List.flatMap_cons]
      simp only [List.filterMap_append, b.filterMap_reportedBy]
      rcases b.walk_exprBy (part b) (count + 1) text _ s hs with
        ⟨hwalk, hpresent⟩ | ⟨hwalk, hoptional, hends, -⟩
      · obtain ⟨value, tail, inner, htakes, hdrop, hends, hinner, hpiece⟩ :=
          b.exists_walk_presentBy (part b) (count + 1) text _ s hpresent
        obtain ⟨htail, hstop⟩ := Block.behind_value hle hdrop
        have hlead := (eq_drop_of_drop_eq_append hdrop).symm
        rw [hwalk, hpiece]
        -- the marks of the block stand before those of the rest
        have hbefore : ∀ mark ∈ (⟨count + 1, s.position + b.leadText.length,
            s.position + b.leadText.length + value.length⟩ : Mark) :: (inner ++ s.marks),
            mark.group ≤ count + 1 + (part b).groups := by
          intro mark hmem
          rcases List.mem_cons.mp hmem with rfl | hmem
          · exact Nat.le_add_right _ _
          · rcases List.mem_append.mp hmem with hmem | hmem
            · exact (hinner mark hmem).2
            · exact Nat.le_trans (hearlier mark hmem) (by omega)
        obtain ⟨values, later, hcut, hmarks, hlater, hreported⟩ :=
          ih (count + 1 + (part b).groups) ⟨_, _⟩ hstop hends hbefore
        refine ⟨some value :: values, later ++ ⟨count + 1, s.position + b.leadText.length,
          s.position + b.leadText.length + value.length⟩ :: inner, ?_, ?_, ?_, ?_⟩
        · rw [hdrop, htail]
          exact .present htakes hcut
        · rw [hmarks]
          simp
        · intro mark hmem
          rcases List.mem_append.mp hmem with hmem | hmem
          · have := hlater mark hmem
            omega
          · rcases List.mem_cons.mp hmem with rfl | hmem
            · exact Nat.lt_succ_self count
            · have := (hinner mark hmem).1
              omega
        · rw [namedValues_block, List.append_assoc, List.cons_append,
            find?_mark_append fun mark hmem => by have := hlater mark hmem; omega]
          congr 1
          · simp [hlead]
      · obtain ⟨values, later, hcut, hmarks, hlater, hreported⟩ :=
          ih (count + 1 + (part b).groups) s hle hends fun mark hmem =>
            Nat.le_trans (hearlier mark hmem) (by omega)
        rw [hwalk]
        refine ⟨none :: values, later, .absent hoptional hcut, hmarks, ?_, ?_⟩
        · intro mark hmem
          have := hlater mark hmem
          omega
        · -- no mark before the block has its number
          have hnone : s.marks.find? (·.group = count + 1) = none := by
            rw [List.find?_eq_none]
            intro mark hmem heq
            have := hearlier mark hmem
            rw [of_decide_eq_true heq] at this
            exact Nat.not_succ_le_self count this
          rw [namedValues_block, find?_mark_append fun mark hmem => by
            have := hlater mark hmem; omega, hnone, hreported]
          rfl

/-! ## The whole template -/

/-- The expression of a template starts at the start of the text and goes through its
segments to the end. -/
theorem search_templateExprBy (segments : List Segment) :
    Pattern.search (templateExprBy part segments) text =
      if (Plan.startsEach (segmentPlansBy part text 0 segments) (endPositions text)).has 0 then
        let last := Plan.walkThrough (segmentPlansBy part text 0 segments) (endPositions text)
          ⟨0, []⟩
        some ⟨0, last.position, last.marks⟩
      else none :=
  search_anchored (segmentExprsBy part 0 segments) text

end Segments

end UrlRouting
