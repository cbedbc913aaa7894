import UrlRouting.Proofs.Template.Expression
import UrlRouting.Template.Written

/-!
# Which plain templates compile

The pattern text of a plain template whose blocks have different names is an expression.
It is nested a few levels deep, however long the template is, so only the size limit can
keep it from compiling.

Main statement: `compileTemplate_plain`.
-/

namespace UrlRouting

open Regex

/-! ## Depth -/

theorem foldl_max_le {depths : List Nat} {first most : Nat} (hfirst : first ≤ most)
    (h : ∀ depth ∈ depths, depth ≤ most) : depths.foldl max first ≤ most := by
  induction depths generalizing first with
  | nil => exact hfirst
  | cons depth rest ih =>
    exact ih (Nat.max_le.mpr ⟨hfirst, h depth (List.mem_cons_self ..)⟩)
      fun d hd => h d (List.mem_cons_of_mem depth hd)

theorem deepest_le {pieces : List Piece} {most : Nat}
    (h : ∀ piece ∈ pieces, piece.depth ≤ most) :
    deepest pieces ≤ most :=
  foldl_max_le (Nat.zero_le most) fun depth hdepth => by
    obtain ⟨piece, hpiece, rfl⟩ := List.mem_map.mp hdepth
    exact h piece hpiece

theorem depth_branch_le {l : Regex.Level} {most : Nat}
    (h : ∀ piece ∈ l.pieces, piece.depth ≤ most) : l.branch.depth ≤ most + 1 := by
  unfold Regex.Level.branch
  split
  · exact Nat.zero_le _
  · next piece hpieces =>
    rw [hpieces] at h
    exact Nat.le_succ_of_le (h piece (List.mem_cons_self ..))
  · have := deepest_le h
    show 1 + deepest l.pieces ≤ most + 1
    omega

/-- How deeply the parts of a plain template are nested. -/
def blockDepth : Nat := 7

theorem Block.depthBy_le (b : Block) : b.depthBy b.kind.part ≤ blockDepth := by
  have hclass : b.kind.classDepth ≤ 2 := by cases b.kind <;> decide
  show b.kind.classDepth + 1 + 2 + _ + _ ≤ 7
  split <;> split <;> omega

/-- No plain segment is nested deeper. -/
theorem ReadBetween.depth_le {segments : List Segment} {r after : Regex.Reading}
    (h : ReadBetween (·.kind.part) r segments after)
    (hr : ∀ piece ∈ r.level.pieces, piece.depth ≤ blockDepth) :
    ∀ piece ∈ after.level.pieces, piece.depth ≤ blockDepth := by
  intro piece hpiece
  rcases h.depths piece hpiece with hpiece | hzero | ⟨b, -, hdepth⟩
  · exact hr piece hpiece
  · rw [hzero]
    exact Nat.zero_le _
  · rw [hdepth]
    exact b.depthBy_le

/-- The pattern text of a template with plain segments. -/
def plainPattern (segments : List Segment) : String :=
  String.ofList ('^' :: segments.flatMap Segment.plainText ++ ['$'])

theorem patternText_plain {types : MatchTypes} {template : String}
    {segments : List Segment}
    (hsegments : readTemplate template = .ok segments)
    (hplain : ∀ s ∈ segments, s.Plain types) :
    patternText types template = .ok (plainPattern segments) := by
  rw [patternText, hsegments]
  simp only [segmentsText_plain hplain, plainPattern]

variable [SizeLimit]

/-! ## Compiling -/

/-- A reading without open groups, bars and deep parts writes an expression, if
there is room for it. -/
theorem finish_of_depth_le {r : Regex.Reading} {most : Nat} (hmost : most < nestingLimit)
    (houter : r.outer = []) (hbranches : r.level.branches = [])
    (hdepth : ∀ piece ∈ r.level.pieces, piece.depth ≤ most) :
    r.finish =
      if Pattern.WithinLimit (Expr.concat (r.level.pieces.reverse.map (·.expr))) then
        some (Expr.concat (r.level.pieces.reverse.map (·.expr)))
      else none := by
  have hnested : r.level.branch.depth ≤ nestingLimit :=
    Nat.le_trans (depth_branch_le hdepth) hmost
  simp [Regex.Reading.finish, houter, Regex.Level.body_of_branches_eq_nil hbranches, hnested,
    Regex.Level.expr_branch]

theorem ofText?_plain {types : MatchTypes} {segments : List Segment}
    (hplain : ∀ s ∈ segments, s.Plain types) (hdistinct : (namesOf segments).Nodup) :
    Pattern.ofText? ('^' :: segments.flatMap Segment.plainText ++ ['$']) =
      if Pattern.WithinLimit (templateExpr segments) then some (templateExpr segments)
      else none := by
  obtain ⟨after, hfold⟩ := exists_foldlM_readBy hdistinct
    (Regex.Reading.start.add Piece.textStart) (by simp [Regex.Reading.start, Regex.Reading.add])
  have hbetween := readBetween_of_foldlM hfold
  have hdepth := hbetween.depth_le (by simp [Regex.Reading.start, Regex.Reading.add,
    Regex.Level.add, Piece.textStart])
  rw [Pattern.ofText?, readTokens_plainText hplain, hfold, Option.map_some, Option.bind_some,
    finish_of_depth_le (by decide : blockDepth < nestingLimit) (by exact hbetween.outer)
      (by exact hbetween.branches),
    hbetween.concat_eq, templateExprBy_plain]
  intro piece hpiece
  rcases List.mem_cons.mp hpiece with rfl | hpiece
  · exact Nat.zero_le _
  · exact hdepth piece hpiece

/-- Two groups of one name are no expression, so a name that comes twice is refused. -/
theorem ofText?_plain_of_not_nodup {types : MatchTypes} {segments : List Segment}
    (hplain : ∀ s ∈ segments, s.Plain types) (htwice : ¬ (namesOf segments).Nodup) :
    Pattern.ofText? ('^' :: segments.flatMap Segment.plainText ++ ['$']) = none := by
  cases h : Pattern.ofText? ('^' :: segments.flatMap Segment.plainText ++ ['$']) with
  | none => rfl
  | some e => exact absurd (expr_of_ofText? hplain h).2 htwice

/-- A plain template whose blocks have different names compiles, if there is
room for it. -/
theorem compileTemplate_plain {types : MatchTypes} {template : String}
    {segments : List Segment}
    (hraw : isRaw template = false) (hsegments : readTemplate template = .ok segments)
    (hplain : ∀ s ∈ segments, s.Plain types) (hdistinct : (namesOf segments).Nodup) :
    compileTemplate types template =
      if Pattern.WithinLimit (templateExpr segments) then
        .ok ⟨template, plainPattern segments, templateExpr segments⟩
      else .error (.invalidPattern template (plainPattern segments) "") := by
  rw [compileTemplate, anyPatternText_of_not_raw hraw, patternText_plain hsegments hplain]
  simp only [plainPattern, String.toList_ofList]
  rw [ofText?_plain hplain hdistinct]
  by_cases hroom : Pattern.WithinLimit (templateExpr segments)
  · rw [if_pos hroom, if_pos hroom]
  · rw [if_neg hroom, if_neg hroom]

theorem compileTemplate_plain_of_not_nodup {types : MatchTypes} {template : String}
    {segments : List Segment} (hraw : isRaw template = false)
    (hsegments : readTemplate template = .ok segments)
    (hplain : ∀ s ∈ segments, s.Plain types) (htwice : ¬ (namesOf segments).Nodup) :
    compileTemplate types template =
      .error (.invalidPattern template (plainPattern segments) "") := by
  rw [compileTemplate, anyPatternText_of_not_raw hraw, patternText_plain hsegments hplain]
  simp only [plainPattern, String.toList_ofList]
  rw [ofText?_plain_of_not_nodup hplain htwice]

/-- What a plain template compiles to for which there is room. -/
theorem compileTemplate_of_withinLimit {types : MatchTypes} {template text : String}
    {segments : List Segment} (hraw : isRaw template = false)
    (hsegments : readTemplate template = .ok segments)
    (hplain : ∀ s ∈ segments, s.Plain types)
    (hdistinct : (namesOf segments).Nodup)
    (hroom : Pattern.WithinLimit (templateExpr segments))
    (htext : plainPattern segments = text) :
    compileTemplate types template = .ok ⟨template, text, templateExpr segments⟩ := by
  rw [compileTemplate_plain hraw hsegments hplain hdistinct, if_pos hroom, htext]

end UrlRouting
