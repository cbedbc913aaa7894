import UrlRouting.Proofs.Clones.Transparency
import UrlRouting.Proofs.Registration
import UrlRouting.Proofs.Template.Compiling
import UrlRouting.Regex.ProgramSize

/-!
# Which plain templates are registered

The pattern text of a plain template is an expression unless a name comes twice
in it. Where there is room for it, then, this is the only reason for which a
matcher refuses to prepare a plain template and a router refuses to register it
under a name that is free, and what they answer is the template with its pattern
text.

Main statement: `plainOutcome_of_family`.
-/

namespace UrlRouting

open Regex

/-- What is answered of a plain template: it is accepted exactly if its blocks
have different names and the size limit, wherever it is, leaves room for it, and
it is refused for its pattern text. -/
structure PlainOutcome [SizeLimit] (types : MatchTypes) (template : String)
    (segments : List Segment) (outcome : Except RouteError Unit) : Prop where
  accepted : outcome = .ok () ↔
    (namesOf segments).Nodup ∧ Pattern.WithinLimit (templateExpr segments)
  refused : ∀ e, outcome = .error e →
    ∃ text, patternText types template = .ok text ∧ e = .invalidPattern template text ""

section Templates

variable {types : MatchTypes} {template : String} {segments : List Segment}

theorem plainOutcome_prepared [SizeLimit] (hraw : isRaw template = false)
    (hbracket : hasBracket template = true)
    (hsegments : readTemplate template = .ok segments)
    (hplain : ∀ segment ∈ segments, segment.Plain types) :
    PlainOutcome types template segments (prepared types template) := by
  have hneeds : needsPattern template = true := by rw [needsPattern_eq, hbracket, Bool.or_true]
  have htext := patternText_plain hsegments hplain
  unfold prepared
  rw [if_pos hneeds]
  by_cases hdistinct : (namesOf segments).Nodup
  · rw [compileTemplate_plain hraw hsegments hplain hdistinct]
    by_cases hroom : Pattern.WithinLimit (templateExpr segments)
    · rw [if_pos hroom]
      exact ⟨⟨fun _ => ⟨hdistinct, hroom⟩, fun _ => rfl⟩, nofun⟩
    · rw [if_neg hroom]
      exact ⟨⟨nofun, fun h => absurd h.2 hroom⟩,
        fun e he => ⟨_, htext, (Except.error.inj he).symm⟩⟩
  · rw [compileTemplate_plain_of_not_nodup hraw hsegments hplain hdistinct]
    exact ⟨⟨nofun, fun h => absurd h.1 hdistinct⟩,
      fun e he => ⟨_, htext, (Except.error.inj he).symm⟩⟩

end Templates

/-- A route whose name is free is registered exactly if its template can be matched. -/
theorem Table.add_of_free [SizeLimit] {τ : Type} {t : Table τ} {route : Route τ}
    (hfree : t.Free route) : (t.add route).2 = prepared t.types route.template := by
  have hadded := t.added_add route
  generalize t.add route = answer at hadded
  cases hadded with
  | taken hname htaken => exact absurd hfree htaken
  | refused _ hrefused => exact hrefused.symm
  | registered _ hprepared => exact hprepared.symm

/-- At the end of every run of a family of matchers, and of a family of routers,
each member prepares a plain template, and a router registers it under a name
that is free or without a name, exactly if the blocks have different names, as
long as there is room for the pattern; otherwise the answer is an invalid
pattern with the template and its pattern text. -/
theorem plainOutcome_of_family [SizeLimit] {template : String} {segments : List Segment}
    (hraw : isRaw template = false) (hbracket : hasBracket template = true)
    (hsegments : readTemplate template = .ok segments) :
    (∀ (types : MatchTypes) (enabled : Bool) (steps : List (FamilyStep MatcherCall)) (s : Session),
      let family := startFamily (Matcher.create types enabled) Matcher.perform steps s
      ∀ m ∈ family.1.1, (∀ segment ∈ segments, segment.Plain m.types) →
        PlainOutcome m.types template segments (m.prepare template family.2).1) ∧
    ∀ (τ : Type) (settings : RouterSettings) (steps : List (FamilyStep (RouterCall τ)))
        (s : Session),
      let family := startFamily (Router.create settings) Router.perform steps s
      ∀ r ∈ family.1.1, (∀ segment ∈ segments, segment.Plain r.types) →
        PlainOutcome r.types template segments (r.matcher.prepare template family.2).1 ∧
        ∀ route : Route τ, route.template = template →
          (∀ name, route.name = some name → r.index? name = none) →
            PlainOutcome r.types template segments (r.add route family.2).1.2 := by
  constructor
  · intro types enabled steps s family m hm hplain
    have hcreate : ∀ owners, Grows owners (Matcher.create types enabled) fun owners' m =>
        (id m).Owns owners' ∧ m.types = types :=
      fun _ => Matcher.grows_create types enabled
    obtain ⟨owners, _, howns, -, hfaithful⟩ :=
      member_of_startFamily Matcher.transparent hcreate steps s hm
    have hprepare : (m.prepare template family.2).1 = prepared m.types template :=
      (Matcher.keeps_prepare howns template _ hfaithful).1
    rw [hprepare]
    exact plainOutcome_prepared hraw hbracket hsegments hplain
  · intro τ settings steps s family r hr hplain
    obtain ⟨owners, _, howns, -, hfaithful⟩ :=
      member_of_startFamily Router.transparent (fun _ => Router.grows_create settings) steps s hr
    have houtcome := plainOutcome_prepared hraw hbracket hsegments hplain
    refine ⟨?_, fun route htemplate hfree => ?_⟩
    · have hprepare : (r.matcher.prepare template family.2).1 = prepared r.types template :=
        (Matcher.keeps_prepare howns template _ hfaithful).1
      rw [hprepare]
      exact houtcome
    · obtain ⟨⟨-, hadd⟩, -⟩ := Router.keeps_add howns route _ hfaithful
      have hanswer : (r.add route family.2).1.2 = (r.table.add route).2 := congrArg Prod.snd hadd
      have hname : r.table.Free route := hfree
      have hadded : (r.table.add route).2 = prepared r.types template := by
        rw [Table.add_of_free hname, htemplate]
        rfl
      rw [hanswer, hadded]
      exact houtcome

/-- A template with two names and one with the same name twice, on a clone of a
router that has a route. -/
theorem plainOutcome_of_family_tags :
    let steps : List (FamilyStep (RouterCall String)) :=
      [.call 0 (.add ⟨"GET", "/users/[i:id]", "user", some "user"⟩), .clone 0]
    let family := startFamily (Router.create ⟨true, "/api"⟩) Router.perform steps .start
    let r : Router String := ⟨[⟨"GET", "/users/[i:id]", "user", some "user"⟩], [("user", 0)],
      "/api", ⟨.builtIn, ⟨0, true⟩⟩⟩
    let route : Route String := ⟨"GET", "/[a:tag].[i:id]?", "tag", some "tag"⟩
    let twice : Route String := ⟨"GET", "/[a:tag].[i:tag]?", "tag", none⟩
    r ∈ family.1.1 ∧ (r.add route family.2).1.2 = .ok () ∧
      (∀ e, (r.add twice family.2).1.2 = .error e → ∃ text,
        patternText .builtIn "/[a:tag].[i:tag]?" = .ok text ∧
          e = .invalidPattern "/[a:tag].[i:tag]?" text "") ∧
      (r.add twice family.2).1.2 ≠ .ok () := by
  intro steps family r route twice
  have hr : r ∈ family.1.1 := by decide +kernel
  have hroute := (@plainOutcome_of_family _ "/[a:tag].[i:id]?"
    [.block ⟨some .slash, "a", some "tag", false, 0, 8⟩,
      .block ⟨some .dot, "i", some "id", true, 8, 16⟩]
    (by decide) (by decide) (by decide)).2 String _ steps _ r hr (by decide)
  have htwice := (@plainOutcome_of_family _ "/[a:tag].[i:tag]?"
    [.block ⟨some .slash, "a", some "tag", false, 0, 8⟩,
      .block ⟨some .dot, "i", some "tag", true, 8, 17⟩]
    (by decide) (by decide) (by decide)).2 String _ steps _ r hr (by decide)
  refine ⟨hr, ?_, ?_, ?_⟩
  · exact (hroute.2 route rfl (by decide)).accepted.mpr ⟨by decide, by decide⟩
  · exact (htwice.2 twice rfl (by decide)).refused
  · intro hok
    exact absurd ((htwice.2 twice rfl (by decide)).accepted.mp hok).1 (by decide)

end UrlRouting
