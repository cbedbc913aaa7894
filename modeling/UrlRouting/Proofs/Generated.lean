import UrlRouting.Proofs.Refusals
import UrlRouting.Proofs.Template.Compiling
import UrlRouting.Proofs.Template.Delimited
import UrlRouting.Proofs.Template.Filling
import UrlRouting.Regex.ProgramSize

/-!
# Generated paths

A path that was generated from a delimited template is matched by the template
again, and the match gives the values back that went into the path. Only the
size limit can keep a template from matching: where it is the usual one, long
enough literal text is enough for that.

Main statements: `matchRoute_generateUrl`, `not_forall_matchRoute_generateUrl`.
-/

namespace UrlRouting

open Regex (metacharacters)

/-- The block of a template stands in brackets. -/
theorem hasBracket_of_mem_blocksOf {template : String} {segments : List Segment}
    {b : Block}
    (hsegments : readTemplate template = .ok segments) (hb : b ∈ blocksOf segments) :
    hasBracket template = true := by
  have hwritten := writtenOf_of_readTemplate hsegments
  obtain ⟨s, hs, hblock⟩ := List.mem_filterMap.mp hb
  obtain rfl : s = .block b := by
    cases s with
    | literal text => cases hblock
    | block b' => exact congrArg Segment.block (Option.some.inj hblock)
  rw [hasBracket, List.contains_iff_mem, ← hwritten]
  refine List.mem_flatMap.mpr ⟨.block b, hs, ?_⟩
  show '[' ∈ b.written
  simp [Block.written]

/-- If the first block has a value, a filled template starts with the text before its
first bracket. -/
theorem literalStart_prefix_fill {template : String} {segments : List Segment}
    {lookup : String → Option String} (hbracket : hasBracket template = true)
    (hsegments : readTemplate template = .ok segments)
    (hsupplies : Supplies lookup segments)
    {first : Block} (hfirst : (blocksOf segments).head? = some first)
    (hvalue : (first.valueFrom lookup).isSome = true) :
    literalStart template.toList <+: fill lookup segments := by
  -- before the first bracket stand a literal, if there is one, and the lead of
  -- the block
  have hcut := cut_fill hsupplies
  obtain ⟨before, b, rest, rfl, hstart⟩ := exists_block_of_readTemplate hbracket hsegments
  have hblocks : blocksOf (literalSegments before ++ .block b :: rest) = b :: blocksOf rest := by
    unfold literalSegments
    split <;> rfl
  rw [hblocks] at hfirst hcut
  obtain rfl := Option.some.inj hfirst
  obtain ⟨tail, hpath, htail⟩ := cut_literalSegments_iff.mp hcut
  rw [hpath, hstart, List.prefix_append_right_inj]
  rcases cut_block_iff.mp htail with ⟨value, behind, others, -, -, -, rfl, -⟩ | ⟨_, hnone, -, -⟩
  · exact List.prefix_append _ _
  · rw [List.map_cons] at hnone
    rw [(List.cons.inj hnone).1] at hvalue
    cases hvalue

/-- The route of a delimited template accepts what the template is filled up to,
if there is room for the pattern. -/
theorem routeAnswer_fill [Regex.SizeLimit] {types : MatchTypes}
    {methods template request : String}
    {segments : List Segment} {lookup : String → Option String} {first : Block}
    (hmethod : allowsMethod methods request = true) (hraw : isRaw template = false)
    (hsegments : readTemplate template = .ok segments)
    (hplain : ∀ segment ∈ segments, segment.Plain types)
    (hdistinct : (namesOf segments).Nodup) (hdelimited : Delimited segments)
    (hsupplies : Supplies lookup segments)
    (hfirst : (blocksOf segments).head? = some first)
    (hvalue : (first.valueFrom lookup).isSome = true) :
    routeAnswer types methods template (String.ofList (fill lookup segments)) request =
      if Regex.Pattern.WithinLimit (templateExpr segments) then
        .ok (some (suppliedParams lookup segments))
      else .error (.invalidPattern template (plainPattern segments) "") := by
  have hbracket := hasBracket_of_mem_blocksOf hsegments (List.mem_of_head? hfirst)
  have hbegins := literalStart_prefix_fill hbracket hsegments hsupplies hfirst hvalue
  rw [routeAnswer_of_hasBracket hmethod hbracket hraw, String.toList_ofList, if_pos hbegins,
    patternAnswer, compileTemplate_plain hraw hsegments hplain hdistinct]
  by_cases hroom : Regex.Pattern.WithinLimit (templateExpr segments)
  · rw [if_pos hroom, if_pos hroom]
    have hcaptures := (captures_eq_some_iff
      (c := ⟨template, plainPattern segments, templateExpr segments⟩) rfl
      (String.ofList (fill lookup segments)) _).mpr
      ⟨_, by rw [String.toList_ofList]; exact preferred_fill hdelimited hsupplies,
        (namedValues_valueFrom _ segments).symm⟩
    exact congrArg Except.ok hcaptures
  · rw [if_neg hroom, if_neg hroom]
    rfl

/-- A matcher gives back the values that a path was generated from, if the
pattern of the template is within the size limit, wherever that is; otherwise
the pattern is refused. The blocks of the template have leads, different names
and values without delimiters, only the last may be left out, and the first is
not. -/
theorem matchRoute_generateUrl [Regex.SizeLimit] {types : MatchTypes} {enabled : Bool}
    {steps : List (FamilyStep MatcherCall)} {s : Session} {m : Matcher} {σ : Type}
    [ParamSource σ]
    (hm : m ∈ (startFamily (Matcher.create types enabled) Matcher.perform steps s).1.1)
    {methods template request : String} {segments : List Segment}
    (hmethod : allowsMethod methods request = true) (hraw : isRaw template = false)
    (hsegments : readTemplate template = .ok segments)
    (hplain : ∀ segment ∈ segments, segment.Plain m.types)
    (hdistinct : (namesOf segments).Nodup) (hdelimited : Delimited segments) {params : σ}
    (hsupplies : Supplies (ParamSource.lookup params) segments) {first : Block}
    (hfirst : (blocksOf segments).head? = some first)
    (hvalue : (first.valueFrom (ParamSource.lookup params)).isSome = true) :
    ∃ url, generateUrl "" template params = .ok url ∧
      (m.matchRoute methods template url request
          (startFamily (Matcher.create types enabled) Matcher.perform steps s).2).1 =
        if Regex.Pattern.WithinLimit (templateExpr segments) then
          .ok (some (suppliedParams (ParamSource.lookup params) segments))
        else .error (.invalidPattern template (plainPattern segments) "") := by
  have hbracket := hasBracket_of_mem_blocksOf hsegments (List.mem_of_head? hfirst)
  refine ⟨_, generateUrl_of_readTemplate hraw hbracket hsegments "" params, ?_⟩
  rw [matchRoute_of_family hm, String.empty_append]
  exact routeAnswer_fill hmethod hraw hsegments hplain hdistinct hdelimited hsupplies hfirst hvalue

/-- A page whose `format` is left out, under a dot that leads it. Names that no
block has do not matter. -/
theorem matchRoute_generateUrl_page :
    let template := "/pages/[a:page]s.[:format]?"
    let segments : List Segment := [.literal "/pages",
      .block ⟨some .slash, "a", some "page", false, 6, 15⟩, .literal "s",
      .block ⟨some .dot, "", some "format", true, 16, 27⟩]
    let params : Params := ⟨[("page", "news"), ("size", "2")]⟩
    ∃ m, m ∈ (startFamily (Matcher.create .builtIn true) Matcher.perform [] .start).1.1 ∧
      allowsMethod "GET|POST" "get" = true ∧ isRaw template = false ∧
      readTemplate template = .ok segments ∧ (∀ segment ∈ segments, segment.Plain m.types) ∧
      (namesOf segments).Nodup ∧ Delimited segments ∧
      Supplies (ParamSource.lookup params) segments ∧
      ∃ url, generateUrl "" template params = .ok url ∧
        (m.matchRoute "GET|POST" template url "get"
            (startFamily (Matcher.create .builtIn true) Matcher.perform [] .start).2).1 =
          .ok (some (suppliedParams (ParamSource.lookup params) segments)) := by
  intro template segments params
  have hm : (⟨.builtIn, ⟨0, true⟩⟩ : Matcher) ∈
      (startFamily (Matcher.create .builtIn true) Matcher.perform [] .start).1.1 :=
    List.mem_singleton.mpr rfl
  have hmethod : allowsMethod "GET|POST" "get" = true := by decide
  have hsegments : readTemplate template = .ok segments := by decide
  have hplain : ∀ segment ∈ segments, segment.Plain .builtIn := by decide
  have hdelimited : Delimited segments := by decide
  have hsupplies : Supplies (ParamSource.lookup params) segments := by decide
  obtain ⟨url, hurl, hanswer⟩ := matchRoute_generateUrl hm hmethod (by decide) hsegments hplain
    (by decide) hdelimited hsupplies rfl (by decide)
  rw [if_pos (by decide)] at hanswer
  exact ⟨_, hm, hmethod, by decide, hsegments, hplain, by decide, hdelimited, hsupplies, url, hurl,
    hanswer⟩

/-! ## Too much literal text -/

def crowdedBlock : Block := ⟨some .slash, "", some "n", false, 0, 5⟩

/-- Literal text behind a block. -/
def crowdedTemplate (size : Nat) : String :=
  String.ofList ("/[:n]".toList ++ List.replicate size '😀')

def crowdedSegments (size : Nat) : List Segment :=
  [.block crowdedBlock, .literal (String.ofList (List.replicate size '😀'))]

theorem readTemplate_crowdedTemplate {size : Nat} (hsize : 0 < size) :
    readTemplate (crowdedTemplate size) = .ok (crowdedSegments size) := by
  obtain ⟨size, rfl⟩ := Nat.exists_eq_succ_of_ne_zero (Nat.ne_of_gt hsize)
  have hblock : "/[:n]".toList.foldlM Scan.step Scan.start = .ok ⟨5, [], .closed crowdedBlock⟩ := by
    decide
  have hbehind : Scan.step ⟨5, [], .closed crowdedBlock⟩ '😀' =
      .ok ⟨9, [.block crowdedBlock], .literal ['😀']⟩ := rfl
  have hplain : NoBracket (List.replicate size '😀') := by
    constructor <;> simp [List.mem_replicate]
  have hpass : ("/[:n]".toList ++ List.replicate (size + 1) '😀').foldlM Scan.step Scan.start =
      .ok ⟨9 + byteCount (List.replicate size '😀'), [.block crowdedBlock],
        .literal ((List.replicate size '😀').reverse ++ ['😀'])⟩ := by
    rw [List.foldlM_append, hblock]
    show (List.replicate (size + 1) '😀').foldlM Scan.step ⟨5, [], .closed crowdedBlock⟩ = _
    rw [List.replicate_succ, List.foldlM_cons, hbehind]
    show (List.replicate size '😀').foldlM Scan.step ⟨9, [.block crowdedBlock], .literal ['😀']⟩ = _
    rw [foldlM_step_literal hplain]
  unfold readTemplate readSegments crowdedTemplate
  rw [String.toList_ofList, hpass]
  show Except.ok (closeLiteral _ [.block crowdedBlock]).reverse = _
  rw [closeLiteral, if_neg (by simp)]
  simp [crowdedSegments, List.replicate_succ]

theorem isRaw_crowdedTemplate (size : Nat) : isRaw (crowdedTemplate size) = false := by
  unfold isRaw crowdedTemplate
  rw [String.toList_ofList]
  rfl

/-- The parts of a sequence take up their room side by side. -/
theorem Regex.programSize_concat (e : Pattern) (es : List Pattern) :
    Pattern.programSize (Expr.concat (e :: es)) =
      Pattern.programSize e + (es.map Pattern.programSize).sum := by
  show Pattern.programSize (es.foldl Expr.seq e) = _
  induction es generalizing e with
  | nil => rfl
  | cons next rest ih =>
    rw [List.foldl_cons, ih, Pattern.programSize, List.map_cons, List.sum_cons, Nat.add_assoc]

/-- Each of the characters takes up four states of 32 bytes. -/
theorem le_programSize_crowdedSegments (size : Nat) :
    128 * size ≤ Regex.Pattern.programSize (templateExpr (crowdedSegments size)) := by
  have hchar : Regex.Pattern.programSize (Regex.Pattern.char '😀') = 128 := by decide
  rw [templateExpr, Regex.programSize_concat]
  simp only [crowdedSegments, segmentExprs, String.toList_ofList, List.map_cons, List.map_append,
    List.map_replicate, List.sum_cons, List.sum_append, List.sum_replicate_nat, hchar]
  omega

theorem plain_crowdedSegments (size : Nat) :
    ∀ s ∈ crowdedSegments size, s.Plain .builtIn := by
  intro s hs
  rcases List.mem_cons.mp hs with rfl | hs
  · show crowdedBlock.Plain .builtIn
    decide
  · obtain rfl := List.mem_singleton.mp hs
    intro c hc
    rw [String.toList_ofList] at hc
    obtain rfl := List.eq_of_mem_replicate hc
    decide

theorem delimited_crowdedSegments (size : Nat) : Delimited (crowdedSegments size) where
  blocks := by
    show ∀ b ∈ [crowdedBlock], b.Delimited
    decide
  required := nofun

theorem supplies_crowdedSegments (size : Nat) :
    Supplies (Params.get? ⟨[("n", "x")]⟩) (crowdedSegments size) where
  fits := by
    intro b hb value hvalue
    obtain rfl : b = crowdedBlock := List.mem_singleton.mp hb
    obtain rfl : ['x'] = value := Option.some.inj hvalue
    refine ⟨List.cons_ne_nil _ _, fun c hc => ?_⟩
    obtain rfl := List.mem_singleton.mp hc
    decide
  required := by
    show ∀ b ∈ [crowdedBlock], b.isOptional = false → _
    decide

/-- Not every template with delimited values matches what it generates: with
enough literal text behind its block it does not compile. -/
theorem not_forall_matchRoute_generateUrl :
    ¬ ∀ (types : MatchTypes) (enabled : Bool) (steps : List (FamilyStep MatcherCall))
        (s : Session) (m : Matcher) (methods template request : String)
        (segments : List Segment) (params : Params) (first : Block),
      m ∈ (startFamily (Matcher.create types enabled) Matcher.perform steps s).1.1 →
      allowsMethod methods request = true → isRaw template = false →
      readTemplate template = .ok segments → (∀ segment ∈ segments, segment.Plain m.types) →
      (∀ b ∈ blocksOf segments, b.name?.isSome = true) → (namesOf segments).Nodup →
      Delimited segments → Supplies (ParamSource.lookup params) segments →
      (blocksOf segments).head? = some first →
      (first.valueFrom (ParamSource.lookup params)).isSome = true →
      ∃ url, generateUrl "" template params = .ok url ∧
        (m.matchRoute methods template url request
            (startFamily (Matcher.create types enabled) Matcher.perform steps s).2).1 =
          .ok (some (suppliedParams (ParamSource.lookup params) segments)) := by
  intro h
  have hm : (⟨.builtIn, ⟨0, true⟩⟩ : Matcher) ∈
      (startFamily (Matcher.create .builtIn true) Matcher.perform [] .start).1.1 :=
    List.mem_singleton.mpr rfl
  have hmethod : allowsMethod "GET" "GET" = true := by decide
  -- the number has a name, so that no text of this length is ever evaluated
  obtain ⟨size, hsize⟩ : ∃ size, size = 100000 := ⟨_, rfl⟩
  have hpos : 0 < size := by omega
  have hsegments := readTemplate_crowdedTemplate hpos
  have hraw := isRaw_crowdedTemplate size
  have hplain := plain_crowdedSegments size
  have hnamed : ∀ b ∈ blocksOf (crowdedSegments size), b.name?.isSome = true := by
    show ∀ b ∈ [crowdedBlock], b.name?.isSome = true
    decide
  have hdistinct : (namesOf (crowdedSegments size)).Nodup := by
    show ["n"].Nodup
    decide
  have hdelimited := delimited_crowdedSegments size
  have hsupplies := supplies_crowdedSegments size
  have hvalue : (crowdedBlock.valueFrom (Params.get? ⟨[("n", "x")]⟩)).isSome = true := by
    decide
  obtain ⟨url, hurl, hanswer⟩ := h _ _ _ _ _ "GET" _ "GET" _ ⟨[("n", "x")]⟩ crowdedBlock hm hmethod
    hraw hsegments hplain hnamed hdistinct hdelimited hsupplies rfl hvalue
  have hbracket := hasBracket_of_mem_blocksOf hsegments (List.mem_of_head? (a := crowdedBlock) rfl)
  rw [generateUrl_of_readTemplate hraw hbracket hsegments, String.empty_append] at hurl
  obtain rfl := Except.ok.inj hurl
  have hroom : ¬ Regex.Pattern.WithinLimit (templateExpr (crowdedSegments size)) := by
    intro hallowed
    have hlimit := of_decide_eq_true hallowed
    have hsize := le_programSize_crowdedSegments size
    have hmore : 10 * (1 <<< 20) < 128 * 100000 := by decide
    omega
  rw [matchRoute_of_family hm] at hanswer
  have hrefused := routeAnswer_fill hmethod hraw hsegments hplain hdistinct hdelimited hsupplies
    rfl hvalue
  rw [if_neg hroom] at hrefused
  cases hrefused.symm.trans hanswer

end UrlRouting
