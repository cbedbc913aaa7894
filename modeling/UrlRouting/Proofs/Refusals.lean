import UrlRouting.Proofs.Clones.Transparency
import UrlRouting.Proofs.Template.Matching
import UrlRouting.Proofs.Template.Layout
import UrlRouting.Regex.ProgramSize

/-!
# Paths that are refused before the pattern runs

A matcher runs the pattern of a template with a bracket only on paths that start with
the text before the bracket. That text holds the lead of the first block, but an
optional block takes its lead along when it is left out. So a path that fits a template
without its first block is refused although the pattern accepts it, and no other path of
a plain template is.

Main statements: `matchRoute_eq_captures_iff`, `not_forall_matchRoute_eq_captures`.
-/

namespace UrlRouting

/-- A path that fits a template without its first block, where the text behind the
literal before the block does not begin with the lead of the block. -/
def FitsWithoutLead (segments : List Segment) (path : List Char) : Prop :=
  ∃ before b rest lead tail values,
    segments = literalSegments before ++ .block b :: rest ∧ b.isOptional = true ∧
      b.lead = some lead ∧ path = before ++ tail ∧ tail.head? ≠ some lead.char ∧
      Cut rest tail values

theorem literalSegments_append_inj {before before' : List Char} {b b' : Block}
    {rest rest' : List Segment}
    (h : literalSegments before ++ .block b :: rest =
      literalSegments before' ++ .block b' :: rest') :
    before = before' ∧ b = b' ∧ rest = rest' := by
  unfold literalSegments at h
  split at h <;> split at h <;> simp_all [String.ofList_inj]

theorem cut_literalSegments_iff {before path : List Char} {rest : List Segment}
    {values : List (Option (List Char))} :
    Cut (literalSegments before ++ rest) path values ↔
      ∃ tail, path = before ++ tail ∧ Cut rest tail values := by
  unfold literalSegments
  split
  · next h =>
    subst h
    exact ⟨fun hcut => ⟨path, rfl, hcut⟩, by rintro ⟨tail, rfl, hcut⟩; exact hcut⟩
  · rw [List.singleton_append, cut_literal_iff, String.toList_ofList]

/-- Of the paths that can be cut along the segments of a template, those without the
text before the first bracket are those that lack the lead of the first block. -/
theorem exists_cut_not_prefix_iff {template : String} {segments : List Segment}
    (hbracket : hasBracket template = true)
    (hsegments : readTemplate template = .ok segments) (path : List Char) :
    ((∃ values, Cut segments path values) ∧ ¬ literalStart template.toList <+: path) ↔
      FitsWithoutLead segments path := by
  obtain ⟨before, b, rest, rfl, hstart⟩ := exists_block_of_readTemplate hbracket hsegments
  rw [hstart]
  constructor
  · rintro ⟨⟨values, hcut⟩, hbegins⟩
    obtain ⟨tail, rfl, hfirst⟩ := cut_literalSegments_iff.mp hcut
    rw [List.prefix_append_right_inj] at hbegins
    rcases cut_block_iff.mp hfirst with
      ⟨value, behind, others, -, -, -, rfl, -⟩ | ⟨others, -, hoptional, hrest⟩
    · exact absurd (List.prefix_append _ _) hbegins
    · -- the block is left out, and only its lead can be what the path lacks
      unfold Block.leadText at hbegins
      cases hlead : b.lead with
      | none => exact absurd (by rw [hlead]; exact List.nil_prefix) hbegins
      | some lead =>
        refine ⟨before, b, rest, lead, tail, others, rfl, hoptional, hlead, rfl, ?_, hrest⟩
        intro hhead
        rw [hlead] at hbegins
        obtain ⟨w, rfl⟩ : ∃ w, tail = lead.char :: w := by
          cases tail with
          | nil => cases hhead
          | cons c w => exact ⟨w, by rw [Option.some.inj hhead]⟩
        exact hbegins (List.prefix_append [lead.char] w)
  · rintro ⟨before', b', rest', lead, tail, values, heq, hoptional, hlead, rfl, hhead, hrest⟩
    obtain ⟨rfl, rfl, rfl⟩ := literalSegments_append_inj heq
    refine ⟨⟨none :: values, cut_literalSegments_iff.mpr ⟨tail, rfl, .absent hoptional hrest⟩⟩, ?_⟩
    rw [List.prefix_append_right_inj]
    unfold Block.leadText
    rw [hlead]
    rintro ⟨w, rfl⟩
    exact hhead rfl

/-- Behind the cheap tests, a template with a bracket is left to its pattern on
the paths that start with the text before the bracket. -/
theorem routeAnswer_of_hasBracket [Regex.SizeLimit] {types : MatchTypes}
    {methods template request : String}
    (hmethod : allowsMethod methods request = true)
    (hbracket : hasBracket template = true)
    (hraw : isRaw template = false) (path : String) :
    routeAnswer types methods template path request =
      if literalStart template.toList <+: path.toList then patternAnswer types template path
      else .ok none := by
  have hwildcard : template ≠ wildcard := by
    rintro rfl
    exact absurd hbracket (by decide)
  unfold routeAnswer
  rw [hmethod, hbracket, hraw]
  simp only [Bool.not_true, Bool.false_eq_true, if_false, if_neg hwildcard,
    List.isPrefixOf_iff_prefix]

/-- On those paths, a template that compiles answers with its captures. -/
theorem routeAnswer_of_bracket [Regex.SizeLimit] {types : MatchTypes}
    {methods template request : String}
    {c : CompiledPattern} (hmethod : allowsMethod methods request = true)
    (hbracket : hasBracket template = true) (hraw : isRaw template = false)
    (hcompile : compileTemplate types template = .ok c) (path : String) :
    routeAnswer types methods template path request =
      .ok (if literalStart template.toList <+: path.toList then c.captures path else none) := by
  rw [routeAnswer_of_hasBracket hmethod hbracket hraw, patternAnswer, hcompile]
  split <;> rfl

section Family

variable {types : MatchTypes} {enabled : Bool} {steps : List (FamilyStep MatcherCall)}
  {s : Session} {m : Matcher}

/-- Every matcher of a family answers as it would without a cache. -/
theorem matchRoute_of_family [Regex.SizeLimit]
    (hm : m ∈ (startFamily (Matcher.create types enabled) Matcher.perform steps s).1.1)
    (methods template path request : String) :
    (m.matchRoute methods template path request
        (startFamily (Matcher.create types enabled) Matcher.perform steps s).2).1 =
      routeAnswer m.types methods template path request := by
  have hcreate : ∀ owners, Grows owners (Matcher.create types enabled) fun owners' m =>
      (id m).Owns owners' ∧ m.types = types :=
    fun _ => Matcher.grows_create types enabled
  obtain ⟨owners, _, howns, -, hfaithful⟩ :=
    member_of_startFamily Matcher.transparent hcreate steps s hm
  exact (Matcher.keeps_matchRoute howns methods template path request _ hfaithful).1

/-- A matcher gives the captures of a template with a bracket exactly if there are none
or the path starts with the text before the bracket. The other paths of a plain template
are those that lack the lead of its first block. -/
theorem matchRoute_eq_captures_iff [Regex.SizeLimit]
    (hm : m ∈ (startFamily (Matcher.create types enabled) Matcher.perform steps s).1.1)
    {methods template request : String} {c : CompiledPattern}
    (hmethod : allowsMethod methods request = true)
    (hbracket : hasBracket template = true)
    (hraw : isRaw template = false) (hcompile : compileTemplate m.types template = .ok c)
    (path : String) :
    ((m.matchRoute methods template path request
        (startFamily (Matcher.create types enabled) Matcher.perform steps s).2).1 =
          .ok (c.captures path) ↔
      c.captures path = none ∨ literalStart template.toList <+: path.toList) ∧
    ∀ segments, readTemplate template = .ok segments →
      (∀ segment ∈ segments, segment.Plain m.types) →
      ((m.matchRoute methods template path request
          (startFamily (Matcher.create types enabled) Matcher.perform steps s).2).1 =
            .ok (c.captures path) ↔
        ¬ FitsWithoutLead segments path.toList) := by
  have hiff : routeAnswer m.types methods template path request = .ok (c.captures path) ↔
      c.captures path = none ∨ literalStart template.toList <+: path.toList := by
    rw [routeAnswer_of_bracket hmethod hbracket hraw hcompile]
    by_cases hbegins : literalStart template.toList <+: path.toList
    · simp [hbegins]
    · simp [hbegins, eq_comm]
  rw [matchRoute_of_family hm]
  refine ⟨hiff, fun segments hsegments hplain => ?_⟩
  obtain ⟨hexpr, -⟩ := expr_of_compileTemplate hraw hsegments hplain hcompile
  have hsome := isSome_captures_iff hexpr path
  rw [hiff, ← exists_cut_not_prefix_iff hbracket hsegments, ← hsome, not_and_or, not_not]
  cases c.captures path <;> simp

end Family

/-- A new matcher, the optional `format` of a feed, and the feed itself. The text behind
the literal `/feed` is a lead and a value, so the pattern runs. -/
theorem matchRoute_eq_captures_iff_feed :
    ∃ m c, m ∈ (startFamily (Matcher.create .builtIn true) Matcher.perform [] .start).1.1 ∧
      allowsMethod "GET|POST" "get" = true ∧ hasBracket "/feed.[a:format]?" = true ∧
      isRaw "/feed.[a:format]?" = false ∧
      compileTemplate m.types "/feed.[a:format]?" = .ok c ∧
      readTemplate "/feed.[a:format]?" =
        .ok [.literal "/feed", .block ⟨some .dot, "a", some "format", true, 5, 17⟩] ∧
      ((m.matchRoute "GET|POST" "/feed.[a:format]?" "/feed.json" "get"
          (startFamily (Matcher.create .builtIn true) Matcher.perform [] .start).2).1 =
            .ok (c.captures "/feed.json") ↔
        c.captures "/feed.json" = none ∨
          literalStart "/feed.[a:format]?".toList <+: "/feed.json".toList) ∧
      ((m.matchRoute "GET|POST" "/feed.[a:format]?" "/feed.json" "get"
          (startFamily (Matcher.create .builtIn true) Matcher.perform [] .start).2).1 =
            .ok (c.captures "/feed.json") ↔
        ¬ FitsWithoutLead
          [.literal "/feed", .block ⟨some .dot, "a", some "format", true, 5, 17⟩]
          "/feed.json".toList) := by
  have hcompile : compileTemplate .builtIn "/feed.[a:format]?" =
      .ok ⟨"/feed.[a:format]?", "^/feed(?:\\.(?P<format>[0-9A-Za-z]+))?$",
        templateExpr [.literal "/feed", .block ⟨some .dot, "a", some "format", true, 5, 17⟩]⟩ :=
    compileTemplate_of_withinLimit (by decide) (by decide) (by decide) (by decide) (by decide)
      (by decide)
  have hm : (⟨.builtIn, ⟨0, true⟩⟩ : Matcher) ∈
      (startFamily (Matcher.create .builtIn true) Matcher.perform [] .start).1.1 :=
    List.mem_singleton.mpr rfl
  have hmethod : allowsMethod "GET|POST" "get" = true := by decide
  have hbracket : hasBracket "/feed.[a:format]?" = true := by decide
  have hraw : isRaw "/feed.[a:format]?" = false := by decide
  have hiff := matchRoute_eq_captures_iff hm hmethod hbracket hraw hcompile "/feed.json"
  exact ⟨_, _, hm, hmethod, hbracket, hraw, hcompile, by decide, hiff.1,
    hiff.2 _ (by decide) (by decide)⟩

/-- The text before the first bracket stands for itself, but for a dot directly before
the bracket. -/
def PlainStart (template : String) : Prop :=
  ∃ before lead, literalStart template.toList = before ++ lead ∧ (lead = [] ∨ lead = ['.']) ∧
    ∀ c ∈ before, c ∉ Regex.metacharacters

/-- The comparison does more than save work: `/users` fits `/users/[i:id]?` without its
block, but does not start with `/users/`. -/
theorem not_forall_matchRoute_eq_captures :
    ¬ ∀ (types : MatchTypes) (enabled : Bool) (steps : List (FamilyStep MatcherCall))
        (s : Session) (m : Matcher) (methods template path request : String)
        (c : CompiledPattern),
      m ∈ (startFamily (Matcher.create types enabled) Matcher.perform steps s).1.1 →
      allowsMethod methods request = true → hasBracket template = true →
      isRaw template = false → PlainStart template →
      compileTemplate m.types template = .ok c →
      (m.matchRoute methods template path request
          (startFamily (Matcher.create types enabled) Matcher.perform steps s).2).1 =
        .ok (c.captures path) := by
  intro h
  have hcompile : compileTemplate .builtIn "/users/[i:id]?" =
      .ok ⟨"/users/[i:id]?", "^/users(?:/(?P<id>[0-9]+))?$",
        templateExpr [.literal "/users", .block ⟨some .slash, "i", some "id", true, 6, 14⟩]⟩ :=
    compileTemplate_of_withinLimit (by decide) (by decide) (by decide) (by decide) (by decide)
      (by decide)
  have hstart : PlainStart "/users/[i:id]?" :=
    ⟨['/', 'u', 's', 'e', 'r', 's', '/'], [], by decide, .inl rfl,
      by simp [Regex.metacharacters]⟩
  have hanswer := h .builtIn true [] .start _ "GET" "/users/[i:id]?" "/users" "GET" _
    (List.mem_singleton.mpr rfl) (by decide) (by decide) (by decide)
    hstart hcompile
  revert hanswer
  decide

end UrlRouting
