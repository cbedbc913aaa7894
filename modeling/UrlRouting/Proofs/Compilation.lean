import UrlRouting.Proofs.Clones.Transparency
import UrlRouting.Proofs.KnownTypes
import UrlRouting.Regex.ProgramSize

/-!
# What compiling a template reports

A template that is malformed is reported as such, whatever match types it names.
Otherwise the first block whose match type is missing is reported, and a
template whose blocks all have a known match type has a pattern text. Only then
can the text be no regular expression. A raw template has its own text under all
match types. More match types never take a pattern text away, and they change it
only by a different fragment for a match type that is used.

Main statement: `compile_reports`.
-/

namespace UrlRouting

open Regex

/-! ## Pattern texts -/

section Texts

variable {types : MatchTypes} {segments : List Segment} {template : String} {b : Block}

/-- The first of several blocks whose match type is missing. -/
def FirstMissing (types : MatchTypes) (blocks : List Block) (b : Block) : Prop :=
  ∃ before after, blocks = before ++ b :: after ∧
    (∀ other ∈ before, (types.get? other.typeName).isSome) ∧ types.get? b.typeName = none

/-- Why a template has no pattern text. -/
inductive Untranslatable (types : MatchTypes) (template : String) : RouteError → Prop
  | malformed {d : Defect} (hread : readTemplate template = .error d) :
    Untranslatable types template (.malformedTemplate template d)
  | unknown {segments : List Segment} {b : Block} (hread : readTemplate template = .ok segments)
    (hmissing : FirstMissing types (blocksOf segments) b) :
    Untranslatable types template (.unknownMatchType b.typeName template)

theorem firstMissing_cons_iff {first : Block} {rest : List Block} :
    FirstMissing types (first :: rest) b ↔
      first = b ∧ types.get? b.typeName = none ∨
        (types.get? first.typeName).isSome ∧ FirstMissing types rest b := by
  constructor
  · rintro ⟨before, after, hsplit, hknown, hmissing⟩
    cases before with
    | nil => exact .inl ⟨(List.cons.inj hsplit).1, hmissing⟩
    | cons other before =>
      obtain ⟨rfl, rfl⟩ := List.cons.inj hsplit
      obtain ⟨hfirst, hknown⟩ := List.forall_mem_cons.mp hknown
      exact .inr ⟨hfirst, before, after, rfl, hknown, hmissing⟩
  · rintro (⟨rfl, hmissing⟩ | ⟨hfirst, before, after, rfl, hknown, hmissing⟩)
    · exact ⟨[], rest, rfl, nofun, hmissing⟩
    · exact ⟨first :: before, after, rfl, List.forall_mem_cons.mpr ⟨hfirst, hknown⟩, hmissing⟩

theorem segmentsText_eq_error_iff {typeName : String} :
    segmentsText types segments = .error typeName ↔
      ∃ b, FirstMissing types (blocksOf segments) b ∧ b.typeName = typeName := by
  induction segments with
  | nil =>
    constructor
    · intro herror
      cases herror
    · rintro ⟨b, ⟨before, after, hsplit, -⟩, -⟩
      exact absurd hsplit (by simp [blocksOf])
  | cons segment rest ih =>
    have hrest : ∀ {first : List Char}, segment.patternText types = .ok first →
        (segmentsText types (segment :: rest) = .error typeName ↔
          segmentsText types rest = .error typeName) := by
      intro first hfirst
      rw [segmentsText, hfirst]
      cases segmentsText types rest with
      | error other => rfl
      | ok more => simp [Bind.bind, Except.bind, Pure.pure, Except.pure]
    cases segment with
    | literal text => rw [hrest rfl, ih]; rfl
    | block first =>
      have hblocks : blocksOf (.block first :: rest) = first :: blocksOf rest := rfl
      rw [hblocks]
      simp only [firstMissing_cons_iff]
      cases hget : types.get? first.typeName with
      | none =>
        have hfirst : (Segment.block first).patternText types = .error first.typeName := by
          rw [Segment.patternText, hget]
        rw [segmentsText, hfirst]
        constructor
        · intro herror
          exact ⟨first, .inl ⟨rfl, hget⟩, Except.error.inj herror⟩
        · rintro ⟨b, ⟨rfl, -⟩ | ⟨hknown, -⟩, rfl⟩
          · rfl
          · cases hknown
      | some fragment =>
        have hfirst : (Segment.block first).patternText types =
            .ok (first.patternText fragment.toList) := by
          rw [Segment.patternText, hget]
        rw [hrest hfirst, ih]
        constructor
        · rintro ⟨b, hmissing, hname⟩
          exact ⟨b, .inr ⟨rfl, hmissing⟩, hname⟩
        · rintro ⟨b, ⟨rfl, hmissing⟩ | ⟨-, hmissing⟩, hname⟩
          · rw [hget] at hmissing
            cases hmissing
          · exact ⟨b, hmissing, hname⟩

theorem patternText_eq_error_iff {e : RouteError} :
    patternText types template = .error e ↔ Untranslatable types template e := by
  unfold patternText
  constructor
  · intro herror
    cases hread : readTemplate template with
    | error d =>
      rw [hread] at herror
      obtain rfl := Except.error.inj herror
      exact .malformed hread
    | ok segments =>
      rw [hread] at herror
      dsimp only at herror
      cases htext : segmentsText types segments with
      | error typeName =>
        rw [htext] at herror
        obtain rfl := Except.error.inj herror
        obtain ⟨b, hmissing, rfl⟩ := segmentsText_eq_error_iff.mp htext
        exact .unknown hread hmissing
      | ok text =>
        rw [htext] at herror
        cases herror
  · intro h
    cases h with
    | malformed hread => rw [hread]
    | unknown hread hmissing =>
      rw [hread]
      dsimp only
      rw [segmentsText_eq_error_iff.mpr ⟨_, hmissing, rfl⟩]

theorem segmentsText_congr {others : MatchTypes}
    (h : ∀ b ∈ blocksOf segments, types.get? b.typeName = others.get? b.typeName) :
    segmentsText types segments = segmentsText others segments := by
  induction segments with
  | nil => rfl
  | cons segment rest ih =>
    cases segment with
    | literal text =>
      rw [segmentsText, segmentsText, ih h]
      rfl
    | block b =>
      have hblocks : blocksOf (.block b :: rest) = b :: blocksOf rest := rfl
      rw [hblocks, List.forall_mem_cons] at h
      rw [segmentsText, segmentsText, ih h.2, Segment.patternText, Segment.patternText, h.1]

/-- A template has the same pattern text under match types that give the same
fragments to its blocks. -/
theorem patternText_congr {others : MatchTypes}
    (hread : readTemplate template = .ok segments)
    (h : ∀ b ∈ blocksOf segments, types.get? b.typeName = others.get? b.typeName) :
    patternText types template = patternText others template := by
  simp only [patternText, hread, segmentsText_congr h]

/-- Match types that are put over others leave every pattern text there, and
leave it as it is where the blocks keep their fragments. -/
theorem patternText_extend {text : String} (h : patternText types template = .ok text)
    (more : List (String × String)) :
    ∃ text', patternText (types.extend more) template = .ok text' ∧
      ∀ segments, readTemplate template = .ok segments →
        (∀ b ∈ blocksOf segments,
          (types.extend more).get? b.typeName = types.get? b.typeName) → text' = text := by
  obtain ⟨segments, hread, hknown⟩ := exists_patternText_iff.mp ⟨text, h⟩
  obtain ⟨text', htext'⟩ := exists_patternText_iff.mpr
    ⟨segments, hread, fun b hmem => isSome_get?_extend more (hknown b hmem)⟩
  refine ⟨text', htext', fun segments hread hsame => ?_⟩
  rw [patternText_congr hread hsame, h] at htext'
  exact (Except.ok.inj htext').symm

end Texts

/-! ## Compiling -/

theorem Matcher.compiled_of_free [SizeLimit] {m : Matcher} {template : String}
    {s : Session} (hfree : m.cache.bound? template s = none) :
    (m.compile template s).1.map (·.compiled) = compileTemplate m.types template := by
  rw [m.compile_eq, hfree]
  cases compileTemplate m.types template with
  | error e => rfl
  | ok compiled => rfl

/-- What compiling a template reports. Of a bracket template it is what is wrong
with its pattern text, and otherwise that this text is no regular expression. A
raw template is compiled alike under all match types, and only its expression
can be wrong. -/
structure CompileReports [SizeLimit] (types : MatchTypes) (template : String)
    (answer : Except RouteError SharedPattern) : Prop where
  bracket : isRaw template = false → ∀ e, answer = .error e ↔
    patternText types template = .error e ∨
      ∃ text, patternText types template = .ok text ∧ Pattern.ofText? text.toList = none ∧
        e = .invalidPattern template text ""
  raw : isRaw template = true →
    (∀ others, answer.map (·.compiled) = compileTemplate others template) ∧
      ∀ e, answer = .error e → ∃ text, e = .invalidPattern template text ""

theorem compileReports_of_compiled [SizeLimit] {types : MatchTypes} {template : String}
    {answer : Except RouteError SharedPattern}
    (h : answer.map (·.compiled) = compileTemplate types template) :
    CompileReports types template answer := by
  have herror : ∀ e, answer = .error e ↔ compileTemplate types template = .error e := by
    intro e
    rw [← h]
    cases answer with
    | error e' => simp [Except.map]
    | ok pattern => simp [Except.map]
  refine ⟨fun hraw e => ?_, fun hraw => ⟨fun others => ?_, fun e he => ?_⟩⟩
  · rw [herror, compileTemplate_eq_error_iff, anyPatternText_of_not_raw hraw]
  · rw [h]
    exact compileTemplate_of_raw hraw types others
  · obtain ⟨text, htext⟩ := anyPatternText_of_raw hraw
    rw [herror, compileTemplate_eq_error_iff, htext] at he
    rcases he with he | ⟨text, -, -, rfl⟩
    · cases he
    · exact ⟨text, rfl⟩

/-- For every template. A table of match types gives it a pattern text exactly
if it can be read and all its blocks have a known match type. Otherwise the
error is that it is malformed if it cannot be read, and else that of the first
block whose match type is missing. More match types leave a pattern text there,
and leave it as it is if they change no fragment that is used. A matcher in
whose cache the template is not bound, and every member of a family of matchers
or of routers, compiles it and reports what is wrong with the pattern text, or
else that the text is no regular expression; of a raw template it can report
nothing but this, under all match types alike. -/
theorem compile_reports [SizeLimit] (template : String) :
    (∀ types e, patternText types template = .error e ↔ Untranslatable types template e) ∧
    (∀ types, (∃ text, patternText types template = .ok text) ↔
      ∃ segments, readTemplate template = .ok segments ∧
        ∀ b ∈ blocksOf segments, (types.get? b.typeName).isSome) ∧
    (∀ (types : MatchTypes) more text, patternText types template = .ok text →
      ∃ text', patternText (types.extend more) template = .ok text' ∧
        ∀ segments, readTemplate template = .ok segments →
          (∀ b ∈ blocksOf segments,
            (types.extend more).get? b.typeName = types.get? b.typeName) → text' = text) ∧
    (∀ (m : Matcher) (now : Session), m.cache.bound? template now = none →
      CompileReports m.types template (m.compile template now).1) ∧
    (∀ (types : MatchTypes) (enabled : Bool) (steps : List (FamilyStep MatcherCall)) (s : Session),
      let family := startFamily (Matcher.create types enabled) Matcher.perform steps s
      ∀ m ∈ family.1.1, CompileReports m.types template (m.compile template family.2).1) ∧
    ∀ (τ : Type) (settings : RouterSettings) (steps : List (FamilyStep (RouterCall τ)))
        (s : Session),
      let family := startFamily (Router.create settings) Router.perform steps s
      ∀ r ∈ family.1.1,
        CompileReports r.types template (r.matcher.compile template family.2).1 := by
  refine ⟨fun types e => patternText_eq_error_iff, fun types => exists_patternText_iff,
    fun types more text h => patternText_extend h more, fun m now hfree => ?_, ?_, ?_⟩
  · exact compileReports_of_compiled (Matcher.compiled_of_free hfree)
  · intro types enabled steps s family m hm
    have hcreate : ∀ owners, Grows owners (Matcher.create types enabled) fun owners' m =>
        (id m).Owns owners' ∧ m.types = types :=
      fun _ => Matcher.grows_create types enabled
    apply compileReports_of_compiled
    exact compilesAnew_of_startFamily Matcher.transparent hcreate steps s m hm template
  · intro τ settings steps s family r hr
    apply compileReports_of_compiled
    exact compilesAnew_of_startFamily Router.transparent
      (fun _ => Router.grows_create settings) steps s r hr template

/-- A title whose match type is missing: it is reported before that of the year,
until both are there, and other match types change nothing then. -/
theorem compile_reports_title :
    let template := "/[i:id]/[slug:title]/[year:from]?"
    let known : MatchTypes := MatchTypes.builtIn.extend [("slug", "[a-z-]+"), ("year", "[0-9]+")]
    let text := "^(?:/(?P<id>[0-9]+))(?:/(?P<title>[a-z-]+))(?:/(?P<from>[0-9]+))?$"
    let family := startFamily (Matcher.create .builtIn true) Matcher.perform [.clone 0] .start
    let m : Matcher := ⟨.builtIn, ⟨0, true⟩⟩
    Untranslatable .builtIn template (.unknownMatchType "slug" template) ∧
      (m ∈ family.1.1 ∧
        (m.compile template family.2).1 = .error (.unknownMatchType "slug" template)) ∧
      patternText (known.extend [("a", "(")]) template = .ok text := by
  intro template known text family m
  have hmissing : patternText .builtIn template = .error (.unknownMatchType "slug" template) := by
    decide +kernel
  have hknown : patternText known template = .ok text := by decide +kernel
  have hm : m ∈ family.1.1 := by decide +kernel
  obtain ⟨herror, -, hmore, -, hmatchers, -⟩ := compile_reports template
  refine ⟨(herror _ _).mp hmissing, ⟨hm, ?_⟩, ?_⟩
  · have hreports := hmatchers .builtIn true [.clone 0] .start m hm
    exact (hreports.bracket (by decide) _).mpr (.inl hmissing)
  · obtain ⟨text', htext', hsame⟩ := hmore known [("a", "(")] text hknown
    have hread : readTemplate template = .ok [.block ⟨some .slash, "i", some "id", false, 0, 7⟩,
        .block ⟨some .slash, "slug", some "title", false, 7, 20⟩,
        .block ⟨some .slash, "year", some "from", true, 20, 33⟩] := by
      decide +kernel
    rw [htext', hsame _ hread (by decide +kernel)]

end UrlRouting
