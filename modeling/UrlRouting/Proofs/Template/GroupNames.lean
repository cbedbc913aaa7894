import UrlRouting.Proofs.Template.Matching
import UrlRouting.Regex.ProgramSize

/-!
# The names of the groups

The name of a block goes into the pattern text as it stands, in front of the
sign that closes the name of a group. A name without that sign is taken as a
whole, or refused if no group may carry it. A name that holds the sign is cut
there: what stands behind it in the name becomes part of the expression. So the
groups are named as the blocks are as long as no block has the sign in its name,
and not otherwise.

Main statement: `groupNames_eq_namesOf_iff`.
-/

namespace UrlRouting

open Regex

/-! ## Built-in types under any name -/

/-- Literal text without metacharacters, or a block that asks for a built-in
match type that is still the built-in one, whatever its name is. -/
def Segment.Standard (types : MatchTypes) : Segment → Prop
  | .literal text => ∀ c ∈ text.toList, c ∉ metacharacters
  | .block b => b.typeName ∈ builtInTypes.map (·.1) ∧
    types.get? b.typeName = MatchTypes.builtIn.get? b.typeName

instance (types : MatchTypes) (s : Segment) : Decidable (s.Standard types) :=
  match s with
  | .literal text => List.decidableBAll (· ∉ metacharacters) text.toList
  | .block b => inferInstanceAs (Decidable (b.typeName ∈ builtInTypes.map (·.1) ∧
      types.get? b.typeName = MatchTypes.builtIn.get? b.typeName))

section Reading

variable {types : MatchTypes} {segments : List Segment}

theorem segmentsText_standard (hstandard : ∀ s ∈ segments, s.Standard types) :
    segmentsText types segments = .ok (segments.flatMap Segment.plainText) := by
  rw [← flatMap_textBy_plain]
  refine segmentsText_textBy fun b hb => ?_
  obtain ⟨hbuiltIn, hkept⟩ := hstandard (.block b) hb
  obtain ⟨k, hk⟩ := ValueKind.exists_of_mem_builtInTypes hbuiltIn
  rw [hkept, Block.kind, hk, ValueKind.ofName_name, k.get?_builtIn, String.ofList_toList]

theorem Segment.Standard.plain {s : Segment} (h : s.Standard types)
    (hnamed : ∀ b, s = .block b → b.name?.all (fun name => isGroupName name.toList) = true) :
    s.Plain types := by
  cases s with
  | literal text => exact h
  | block b => exact ⟨h.1, h.2, hnamed b rfl⟩

/-! ## Names that are refused -/

/-- The reader takes the name as a whole, and it is none that a group may carry. -/
theorem readToken_misnamed {name : String} (hwhole : '>' ∉ name.toList)
    (hbad : isGroupName name.toList = false) (rest : List Char) :
    readToken {} ('(' :: '?' :: 'P' :: '<' :: (name.toList ++ '>' :: rest)) = none := by
  have hname : readName (name.toList ++ '>' :: rest) = none := by
    rw [readName, cutAt_append hwhole]
    show (if isGroupName name.toList = true then _ else none) = none
    rw [hbad]
    rfl
  show (readName (name.toList ++ '>' :: rest)).map _ = none
  rw [hname]
  rfl

theorem readTokens_misnamed {b : Block} {name : String} (hname : b.name? = some name)
    (hwhole : '>' ∉ name.toList) (hbad : isGroupName name.toList = false)
    (r : Regex.Reading) (hflags : r.flags = {}) (fragment rest : List Char) :
    readTokens r (b.patternText fragment ++ rest) = none := by
  rw [b.patternText_append, readTokens_opening b r hflags, Regex.Reading.addAll_eq]
  have hnameText : b.nameText = ['?', 'P', '<'] ++ name.toList ++ ['>'] := by
    rw [Block.nameText, hname]
  rw [hnameText]
  refine readTokens_of_readToken_none rfl ?_
  show readToken {} _ = none
  simpa using readToken_misnamed hwhole hbad _

/-- If every name is taken as a whole and the segments can be read, then every
name is one that a group may carry. -/
theorem named_of_readTokens (hstandard : ∀ s ∈ segments, s.Standard types)
    (hwhole : ∀ b name, .block b ∈ segments → b.name? = some name → '>' ∉ name.toList)
    {r after : Regex.Reading} (hflags : r.flags = {}) {rest : List Char}
    (hrest : rest.head? ≠ some '?')
    (h : readTokens r (segments.flatMap Segment.plainText ++ rest) = some after) :
    ∀ b, .block b ∈ segments → b.name?.all (fun name => isGroupName name.toList) = true := by
  induction segments generalizing r with
  | nil => exact nofun
  | cons s segments ih =>
    have htail : ∀ t ∈ segments, t.Standard types :=
      fun t ht => hstandard t (List.mem_cons_of_mem s ht)
    have hbehind : ∀ b name, .block b ∈ segments → b.name? = some name → '>' ∉ name.toList :=
      fun b name hb => hwhole b name (List.mem_cons_of_mem s hb)
    rw [List.flatMap_cons, List.append_assoc] at h
    cases s with
    | literal text =>
      have htext : ∀ c ∈ text.toList, c ∉ metacharacters := hstandard _ (List.mem_cons_self ..)
      change readTokens r (text.toList ++ _) = _ at h
      rw [readTokens_text text.toList _ r hflags htext] at h
      have hclear : (r.addAll (text.toList.map Piece.char)).flags = {} := by
        rw [Regex.Reading.addAll_eq]
        exact hflags
      intro b hb
      exact ih htail hbehind hclear h b ((List.mem_cons.mp hb).resolve_left nofun)
    | block b =>
      change readTokens r (b.patternText b.kind.fragment.toList ++ _) = _ at h
      have hnamed : b.name?.all (fun name => isGroupName name.toList) = true := by
        cases hname : b.name? with
        | none => rfl
        | some name =>
          have hown := hwhole b name (List.mem_cons_self ..) hname
          cases hvalid : isGroupName name.toList with
          | true => exact hvalid
          | false =>
            rw [readTokens_misnamed hname hown hvalid r hflags] at h
            cases h
      have hliteral : ∀ text, .literal text ∈ segments → ∀ c ∈ text.toList, c ∉ metacharacters :=
        fun text ht => htail (.literal text) ht
      have hhead : (segments.flatMap Segment.plainText ++ rest).head? ≠ some '?' := by
        rw [← flatMap_textBy_plain]
        exact head?_textBy hliteral hrest
      rw [readTokens_block hnamed b.kind.heldAs r hflags _ hhead] at h
      split at h
      · cases h
      · have hclear : (b.readBy b.kind.part r).flags = {} := hflags
        intro b' hb'
        rcases List.mem_cons.mp hb' with heq | hb'
        · cases heq
          exact hnamed
        · exact ih htail hbehind hclear h b' hb'

/-- A template of built-in types that compiles is plain if every name is taken
as a whole. -/
theorem plain_of_compileTemplate [SizeLimit] {template : String} {c : CompiledPattern}
    (hraw : isRaw template = false) (hsegments : readTemplate template = .ok segments)
    (hstandard : ∀ s ∈ segments, s.Standard types)
    (hcompile : compileTemplate types template = .ok c)
    (hwhole : ∀ b name, .block b ∈ segments → b.name? = some name → '>' ∉ name.toList) :
    ∀ s ∈ segments, s.Plain types := by
  obtain ⟨inner, hinner, he⟩ := exists_inner_of_compileTemplate hraw hsegments hcompile
  cases (segmentsText_standard hstandard).symm.trans hinner
  obtain ⟨whole, hread, -⟩ := Option.bind_eq_some_iff.mp he
  rw [List.cons_append, readTokens_textStart] at hread
  have hclear : (Regex.Reading.start.add Piece.textStart).flags = {} := rfl
  have hnamed := named_of_readTokens hstandard hwhole hclear (by decide) hread
  refine fun s hs => (hstandard s hs).plain fun b heq => ?_
  subst heq
  exact hnamed b hs

end Reading

/-! ## Groups and blocks -/

/-- The groups of a plain template have the names of its blocks. -/
theorem groupNames_plain [SizeLimit] {types : MatchTypes} {template : String}
    {segments : List Segment} {c : CompiledPattern} (hraw : isRaw template = false)
    (hsegments : readTemplate template = .ok segments)
    (hplain : ∀ s ∈ segments, s.Plain types)
    (hcompile : compileTemplate types template = .ok c) :
    c.groupNames = namesOf segments := by
  obtain ⟨hexpr, -⟩ := expr_of_compileTemplate hraw hsegments hplain hcompile
  rw [CompiledPattern.groupNames, hexpr, ← templateExprBy_plain, namedGroups_templateExprBy,
    map_namedGroups_segmentExprsBy]

/-- For every template of literals without metacharacters and built-in types
that compiles: the groups have the names of the blocks, in order, exactly if no
name of a block holds the sign that closes the name of a group. -/
theorem groupNames_eq_namesOf_iff [SizeLimit] {types : MatchTypes} {template : String}
    {segments : List Segment} {c : CompiledPattern} (hraw : isRaw template = false)
    (hsegments : readTemplate template = .ok segments)
    (hstandard : ∀ s ∈ segments, s.Standard types)
    (hcompile : compileTemplate types template = .ok c) :
    c.groupNames = namesOf segments ↔ ∀ name ∈ namesOf segments, '>' ∉ name.toList := by
  constructor
  · intro hgroups name hname
    rw [← hgroups] at hname
    obtain ⟨⟨number, own⟩, hmem, rfl⟩ := List.mem_map.mp hname
    obtain ⟨text, e, -, he, rfl⟩ := compileTemplate_eq_ok_iff.mp hcompile
    exact not_mem_of_isGroupName (isGroupName_of_mem_namedGroups he hmem)
  · intro hwhole
    refine groupNames_plain hraw hsegments ?_ hcompile
    refine plain_of_compileTemplate hraw hsegments hstandard hcompile fun b name hb hname => ?_
    exact hwhole name (List.mem_filterMap.mpr ⟨b, mem_blocksOf_iff.mpr hb, hname⟩)

/-- A block without a name between two that have one. -/
theorem groupNames_eq_namesOf_iff_archive :
    let template := "/archive/[i:year]-[i]/[:slug].[a:format]?"
    let segments : List Segment := [.literal "/archive",
      .block ⟨some .slash, "i", some "year", false, 8, 17⟩, .literal "-",
      .block ⟨none, "i", none, false, 18, 21⟩,
      .block ⟨some .slash, "", some "slug", false, 21, 29⟩,
      .block ⟨some .dot, "a", some "format", true, 29, 41⟩]
    ∃ c, isRaw template = false ∧ readTemplate template = .ok segments ∧
      (∀ s ∈ segments, s.Standard .builtIn) ∧ compileTemplate .builtIn template = .ok c ∧
      c.groupNames = ["year", "slug", "format"] := by
  intro template segments
  have hraw : isRaw template = false := by decide
  have hsegments : readTemplate template = .ok segments := by decide
  have hstandard : ∀ s ∈ segments, s.Standard .builtIn := by decide
  have hcompiles : (compileTemplate .builtIn template).isOk = true := by decide +kernel
  obtain ⟨c, hcompile⟩ := exists_of_isOk_compileTemplate hcompiles
  refine ⟨c, hraw, hsegments, hstandard, hcompile, ?_⟩
  exact (groupNames_eq_namesOf_iff hraw hsegments hstandard hcompile).mpr (by decide)

/-- The name `a>b` is cut at its sign: the group is named `a`, and `b>` comes before the
digits. -/
theorem not_forall_groupNames_eq_namesOf :
    ¬ ∀ (template : String) (segments : List Segment) (c : CompiledPattern),
      isRaw template = false → readTemplate template = .ok segments →
        (∀ s ∈ segments, s.Standard .builtIn) → compileTemplate .builtIn template = .ok c →
          c.groupNames = namesOf segments := by
  intro h
  let value := Expr.concat [Pattern.char 'b', Pattern.char '>', ValueKind.digits.expr]
  let present := Expr.concat [Pattern.char '/', .group 1 (some "a") value]
  have hcompile : compileTemplate .builtIn "/[i:a>b]" =
      .ok ⟨"/[i:a>b]", "^(?:/(?P<a>b>[0-9]+))$",
        Expr.concat [.test .textStart, present, .test .textEnd]⟩ := by
    decide +kernel
  have hnames := h "/[i:a>b]" [.block ⟨some .slash, "i", some "a>b", false, 0, 8⟩] _
    (by decide) (by decide) (by decide) hcompile
  exact absurd hnames (by decide)

end UrlRouting
