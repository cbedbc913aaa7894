import UrlRouting.Proofs.Regex.Frames
import UrlRouting.Proofs.Regex.Soundness
import UrlRouting.Proofs.Template.Expression
import UrlRouting.Regex.ProgramSize

/-!
# Matches in full

The pattern of a template has an anchor at each end, so that it should take a path as a
whole or not at all. A raw template stands in a group between the anchors. The text of a
bracket template does not: a bar in it, outside of all groups, goes between the anchors
and leaves each of them to one side.

Main statements: `matchesInFull_of_anchorsBind`, `not_forall_matchesInFull`.
-/

namespace UrlRouting

open Regex

/-- Every match of the pattern goes from the start of the path to its end. -/
def CompiledPattern.MatchesInFull (c : CompiledPattern) : Prop :=
  ∀ path : String, c.isMatch path = true →
    ∃ m, Pattern.search c.expr path.toList = some m ∧ m.start = 0 ∧ m.stop = path.toList.length

/-- Whether a text is an expression that closes all groups that it opens, and no
other. -/
def isClosed (text : List Char) : Bool :=
  (readTokens Reading.start text).any fun r => r.outer.isEmpty

/-- Whether a text is such an expression, has no bar outside of its groups and leaves no
mode on in which an end anchor behind it would mean something else. -/
def isUnbarred (text : List Char) : Bool :=
  (readTokens Reading.start text).any fun r =>
    r.outer.isEmpty && r.level.branches.isEmpty && !r.flags.multiLine && !r.flags.verbose

/-- Whether the anchors of a pattern bind all that stands between them. -/
def anchorsBind (types : MatchTypes) (template : String) : Bool :=
  match template.toList with
  | '@' :: raw => isClosed raw
  | _ =>
    match readTemplate template with
    | .error _ => false
    | .ok segments =>
      match segmentsText types segments with
      | .error _ => false
      | .ok text => isUnbarred text

/-! ## Between the anchors -/

/-- Between the anchors, a pattern takes a path as a whole. -/
theorem CompiledPattern.matchesInFull_of_concat {c : CompiledPattern} {es : List Pattern}
    (h : c.expr = Expr.concat (.test .textStart :: es ++ [.test .textEnd])) :
    c.MatchesInFull := by
  intro path hmatch
  obtain ⟨m, hm⟩ := Option.isSome_iff_exists.mp hmatch
  exact ⟨m, hm, full_of_search_anchored (h ▸ hm)⟩

theorem exists_concat_of_isClosed [SizeLimit] {raw : List Char} {e : Pattern}
    (hclosed : isClosed raw = true) (he : Pattern.ofText? (rawText raw) = some e) :
    ∃ es, e = Expr.concat (.test .textStart :: es ++ [.test .textEnd]) := by
  rw [isClosed, Option.any_eq_true] at hclosed
  obtain ⟨r, hread, houter⟩ := hclosed
  refine exists_concat_of_group hread (List.isEmpty_iff.mp houter) ?_
  simpa [rawText] using he

theorem exists_concat_of_isUnbarred [SizeLimit] {text : List Char} {e : Pattern}
    (hunbarred : isUnbarred text = true)
    (he : Pattern.ofText? ('^' :: text ++ ['$']) = some e) :
    ∃ es, e = Expr.concat (.test .textStart :: es ++ [.test .textEnd]) := by
  rw [isUnbarred, Option.any_eq_true] at hunbarred
  obtain ⟨r, hread, hends⟩ := hunbarred
  simp only [Bool.and_eq_true, List.isEmpty_iff, Bool.not_eq_true'] at hends
  obtain ⟨⟨⟨houter, hbranches⟩, hline⟩, hverbose⟩ := hends
  exact exists_concat_of_anchors hread houter hbranches hline hverbose he

/-- If the anchors of a pattern bind all that stands between them, every match goes from
the start of the path to its end. -/
theorem matchesInFull_of_anchorsBind [SizeLimit] {types : MatchTypes} {template : String}
    {c : CompiledPattern} (hcompile : compileTemplate types template = .ok c)
    (hbind : anchorsBind types template = true) : c.MatchesInFull := by
  suffices h : ∃ es, c.expr = Expr.concat (.test .textStart :: es ++ [.test .textEnd]) by
    obtain ⟨es, hes⟩ := h
    exact CompiledPattern.matchesInFull_of_concat hes
  obtain ⟨text, e, htext, he, rfl⟩ := compileTemplate_eq_ok_iff.mp hcompile
  -- the condition splits into the cases in which the pattern text is written
  unfold anchorsBind at hbind
  unfold anyPatternText at htext
  split at hbind
  · next raw hraw =>
    rw [hraw] at htext
    cases htext
    rw [String.toList_ofList] at he
    exact exists_concat_of_isClosed hbind he
  · next hraw =>
    split at htext
    · next raw heq => exact absurd heq (hraw raw)
    · unfold patternText at htext
      split at hbind
      · cases hbind
      · next segments hsegments =>
        rw [hsegments] at htext
        split at hbind
        · cases hbind
        · next between hbetween =>
          simp only [hbetween] at htext
          cases htext
          rw [String.toList_ofList] at he
          exact exists_concat_of_isUnbarred hbind he

/-- The anchors bind every plain template that compiles. -/
theorem anchorsBind_of_plain [SizeLimit] {types : MatchTypes} {template : String}
    {segments : List Segment} {c : CompiledPattern} (hraw : isRaw template = false)
    (hsegments : readTemplate template = .ok segments)
    (hplain : ∀ s ∈ segments, s.Plain types)
    (hcompile : compileTemplate types template = .ok c) :
    anchorsBind types template = true := by
  obtain ⟨-, hdistinct⟩ := expr_of_compileTemplate hraw hsegments hplain hcompile
  obtain ⟨after, hfold⟩ := exists_foldlM_readBy hdistinct Reading.start (by simp [Reading.start])
  have hbetween := readBetween_of_foldlM hfold
  have hread : readTokens Reading.start (segments.flatMap Segment.plainText) = some after := by
    have hend : ([] : List Char).head? ≠ some '?' := by simp
    have hsegmentsRead :=
      readTokens_segments (fun s hs => (hplain s hs).readable) Reading.start rfl hend
    rw [List.append_nil, flatMap_textBy_plain, hfold, Option.bind_some, readTokens_nil]
      at hsegmentsRead
    exact hsegmentsRead
  unfold anchorsBind
  split
  · next raw hlist =>
    rw [isRaw, hlist] at hraw
    cases hraw
  · simp only [hsegments, segmentsText_plain hplain, isUnbarred, hread]
    simp [hbetween.outer, hbetween.branches, hbetween.flags, Reading.start]

/-- A bar inside a group leaves the anchors alone, also in a raw template. -/
theorem matchesInFull_of_anchorsBind_group :
    ∃ c c', compileTemplate .builtIn "/(?:a|b)/[i:id]" = .ok c ∧
      anchorsBind .builtIn "/(?:a|b)/[i:id]" = true ∧ c.MatchesInFull ∧
      compileTemplate .builtIn "@/a|b" = .ok c' ∧ anchorsBind .builtIn "@/a|b" = true ∧
      c'.MatchesInFull := by
  have hcompiles : ∀ template, (compileTemplate .builtIn template).isOk = true →
      ∃ c, compileTemplate .builtIn template = .ok c := by
    intro template h
    cases hcompile : compileTemplate .builtIn template with
    | ok c => exact ⟨c, rfl⟩
    | error e => rw [hcompile] at h; cases h
  obtain ⟨c, hc⟩ := hcompiles "/(?:a|b)/[i:id]" (by decide +kernel)
  obtain ⟨c', hc'⟩ := hcompiles "@/a|b" (by decide +kernel)
  have hbind : anchorsBind .builtIn "/(?:a|b)/[i:id]" = true := by decide +kernel
  have hbind' : anchorsBind .builtIn "@/a|b" = true := by decide +kernel
  exact ⟨c, c', hc, hbind, matchesInFull_of_anchorsBind hc hbind, hc', hbind',
    matchesInFull_of_anchorsBind hc' hbind'⟩

/-! ## A bar between the anchors -/

/-- The anchors do not bind every pattern as a whole: `/a|b[i:id]` means a
beginning `/a` or an end `b` with digits, so it matches `/axyz` for its first
two characters. -/
theorem not_forall_matchesInFull :
    ¬ ∀ (types : MatchTypes) (template : String) (c : CompiledPattern),
      compileTemplate types template = .ok c → c.MatchesInFull := by
  intro h
  let front := Expr.concat [.test .textStart, Pattern.char '/', Pattern.char 'a']
  let back := Expr.concat [Pattern.char 'b', .group 1 (some "id") ValueKind.digits.expr,
    .test .textEnd]
  have hcompile : compileTemplate .builtIn "/a|b[i:id]" =
      .ok ⟨"/a|b[i:id]", "^/a|b(?:(?P<id>[0-9]+))$", .alt front back⟩ := by
    decide +kernel
  have hsearch : Pattern.search (.alt front back) "/axyz".toList = some ⟨0, 2, []⟩ := by
    decide
  have hmatch : Option.isSome (Pattern.search (.alt front back) "/axyz".toList) = true := by
    rw [hsearch]
    rfl
  obtain ⟨m, hm, -, hstop⟩ := h _ _ _ hcompile "/axyz" hmatch
  obtain rfl := Option.some.inj (hsearch.symm.trans hm)
  exact absurd hstop (by decide)

end UrlRouting
