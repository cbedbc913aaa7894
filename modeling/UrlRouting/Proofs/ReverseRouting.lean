import Mathlib.Data.List.Basic
import UrlRouting.Proofs.NameIndex
import UrlRouting.Proofs.Registration
import UrlRouting.Regex.ProgramSize

/-!
# Every name has a URL

A template is filled in if it has no blocks or can be read. Registering reads every
template that has blocks, so what is registered can be filled in, and it stays so: match
types decide whether a template compiles, not whether it can be read. A name that is not
in the index is the one thing that generating a URL can fail of.

Main statement: `generate_of_family`.
-/

namespace UrlRouting

/-! ## Templates -/

/-- A template that can be filled in: it is written as it stands, or it can be read. -/
def Fillable (template : String) : Prop :=
  isRaw template = false → hasBracket template = true →
    ∃ segments, readTemplate template = .ok segments

theorem exists_generateUrl_iff {σ : Type} [ParamSource σ] (base template : String)
    (params : σ) :
    (∃ url, generateUrl base template params = .ok url) ↔ Fillable template := by
  unfold generateUrl Fillable
  by_cases hwritten : isRaw template = true ∨ hasBracket template = false
  · have hasItStands : (isRaw template || !hasBracket template) = true := by
      simpa using hwritten
    rw [if_pos hasItStands]
    refine ⟨fun _ hraw hbracket => ?_, fun _ => ⟨_, rfl⟩⟩
    rcases hwritten with h | h
    · rw [h] at hraw
      cases hraw
    · rw [h] at hbracket
      cases hbracket
  · have hfilled : ¬ (isRaw template || !hasBracket template) = true := by
      simpa using hwritten
    rw [if_neg hfilled]
    simp only [not_or, Bool.not_eq_true, Bool.not_eq_false] at hwritten
    cases hread : readTemplate template with
    | ok segments => exact ⟨fun _ _ _ => ⟨segments, rfl⟩, fun _ => ⟨_, rfl⟩⟩
    | error defect =>
      refine ⟨fun hurl => ?_, fun h => ?_⟩
      · obtain ⟨_, hurl⟩ := hurl
        cases hurl
      · obtain ⟨_, hsegments⟩ := h hwritten.1 hwritten.2
        cases hsegments

/-- A template that can be matched was read on the way to its pattern. -/
theorem fillable_of_prepared [Regex.SizeLimit] {types : MatchTypes} {template : String}
    (h : prepared types template = .ok ()) : Fillable template := by
  intro hraw hbracket
  have hneeds : needsPattern template = true := by
    rw [needsPattern_eq, hbracket, Bool.or_true]
  obtain ⟨c, hcompile⟩ := prepared_eq_ok_iff.mp h hneeds
  exact exists_segments_of_compileTemplate hraw hcompile

/-! ## Tables -/

namespace Table

variable {τ : Type}

/-- Only routes that can be matched are registered, by whatever call. -/
theorem prepared_of_mem_perform [Regex.SizeLimit] {t : Table τ} {route : Route τ}
    (c : RouterCall τ) (h : route ∈ (t.perform c).1.routes) :
    route ∈ t.routes ∨ prepared t.types route.template = .ok () := by
  cases c with
  | add new => exact prepared_of_mem_add h
  | addVerb verb template target name => exact prepared_of_mem_add h
  | addAll routes => exact prepared_of_mem_addAll routes h
  | addTypes types => exact .inl h
  | setBase base => exact .inl h
  | routes => exact .inl h
  | named name => exact .inl h
  | generate name params => exact .inl h
  | matchRequest url request => exact .inl h

/-- A URL can be generated for every route. -/
def Fillable (t : Table τ) : Prop :=
  ∀ route ∈ t.routes, UrlRouting.Fillable route.template

theorem fillable_create (base : String) : (create (τ := τ) base).Fillable := by
  intro route hmem
  cases hmem

theorem Fillable.perform [Regex.SizeLimit] {t : Table τ} (h : t.Fillable)
    (c : RouterCall τ) :
    (t.perform c).1.Fillable := by
  intro route hmem
  rcases prepared_of_mem_perform c hmem with hold | hprepared
  · exact h route hold
  · exact fillable_of_prepared hprepared

end Table

/-! ## Routers -/

theorem Router.generate_of_named {τ σ : Type} [ParamSource σ] {r : Router τ}
    {name : String} {route : Route τ} (h : r.named? name = some route) (params : σ) :
    r.generate name params = generateUrl r.base route.template params := by
  unfold Router.generate
  rw [h]

theorem Router.generate_of_unnamed {τ σ : Type} [ParamSource σ] {r : Router τ}
    {name : String} (h : r.named? name = none) (params : σ) :
    r.generate name params = .error (.unknownName name) := by
  unfold Router.generate
  rw [h]

/-- At the end of every run of a family of routers, whatever failed in it: a
name that a route of the router has leads to the URL of the route, from any
parameters, and generating fails exactly for the other names, which it reports
as unknown. -/
theorem generate_of_family [Regex.SizeLimit] {τ : Type} {settings : RouterSettings}
    {steps : List (FamilyStep (RouterCall τ))} {s : Session} {r : Router τ}
    (hr : r ∈ (startFamily (Router.create settings) Router.perform steps s).1.1)
    {σ : Type} [ParamSource σ] (name : String) (params : σ) :
    (∀ route ∈ r.routes, route.name = some name → ∃ url,
      generateUrl r.base route.template params = .ok url ∧ r.generate name params = .ok url) ∧
    ((∃ e, r.generate name params = .error e) ↔ ∀ route ∈ r.routes, route.name ≠ some name) ∧
    ∀ e, r.generate name params = .error e → e = .unknownName name := by
  have hindexed : r.table.Indexed := (indexed_of_family hr).1
  have hfillable : r.table.Fillable :=
    table_of_family (Table.fillable_create _) (fun _ c h => h.perform c) hr
  have hurl : ∀ route ∈ r.routes, route.name = some name → ∃ url,
      generateUrl r.base route.template params = .ok url ∧
        r.generate name params = .ok url := by
    intro route hmem hname
    obtain ⟨url, hurl⟩ :=
      (exists_generateUrl_iff r.base route.template params).mpr (hfillable route hmem)
    have hnamed : r.named? name = some route :=
      (Router.mem_routes_of_index hindexed).mpr ⟨hmem, hname⟩
    exact ⟨url, hurl, (Router.generate_of_named hnamed params).trans hurl⟩
  have hunknown : (∀ route ∈ r.routes, route.name ≠ some name) →
      r.generate name params = .error (.unknownName name) := by
    intro hfree
    refine Router.generate_of_unnamed ?_ params
    rw [Option.eq_none_iff_forall_ne_some]
    intro route hnamed
    obtain ⟨hmem, hname⟩ := (Router.mem_routes_of_index hindexed).mp hnamed
    exact hfree route hmem hname
  have hfails : ∀ e, r.generate name params = .error e →
      ∀ route ∈ r.routes, route.name ≠ some name := by
    intro e he route hmem hname
    obtain ⟨url, -, hok⟩ := hurl route hmem hname
    rw [hok] at he
    cases he
  refine ⟨hurl, ⟨fun ⟨e, he⟩ => hfails e he, fun hfree => ⟨_, hunknown hfree⟩⟩, fun e he => ?_⟩
  rw [hunknown (hfails e he)] at he
  exact (Except.error.inj he).symm

/-- After a name that is taken, a list of routes that stops at its second and
match types that fit no block, every kind of template still has a URL. -/
theorem generate_of_family_mixed :
    let user : Route String := ⟨"GET", "/users/[i:id].[:format]?", "user", some "user"⟩
    let any : Route String := ⟨"GET", "*", "any", some "any"⟩
    let raw : Route String := ⟨"GET", "@[0-9]+", "raw", some "raw"⟩
    let plain : Route String := ⟨"GET", "/a]b", "plain", some "plain"⟩
    let steps : List (FamilyStep (RouterCall String)) :=
      [.call 0 (.addAll [user, any, raw]), .call 0 (.add ⟨"GET", "/x", "x", some "any"⟩),
        .call 0 (.addAll [plain, ⟨"GET", "/[:id", "broken", some "broken"⟩]),
        .call 0 (.addTypes [("i", "(")])]
    let r : Router String := ⟨[user, any, raw, plain],
      [("plain", 3), ("raw", 2), ("any", 1), ("user", 0)], "/api",
      ⟨MatchTypes.builtIn.extend [("i", "(")], ⟨1, true⟩⟩⟩
    let params : Params := ⟨[("id", "7")]⟩
    r ∈ (startFamily (Router.create ⟨true, "/api"⟩) Router.perform steps .start).1.1 ∧
      (∀ route ∈ r.routes, ∀ name, route.name = some name →
        ∃ url, r.generate name params = .ok url) ∧
      r.generate "user" params = .ok "/api/users/7" ∧
      ∀ e, r.generate "broken" params = .error e → e = .unknownName "broken" := by
  intro user any raw plain steps r params
  have hr : r ∈ (startFamily (Router.create ⟨true, "/api"⟩) Router.perform steps .start).1.1 := by
    decide +kernel
  refine ⟨hr, fun route hmem name hname => ?_, by decide +kernel, ?_⟩
  · obtain ⟨url, -, hurl⟩ := (generate_of_family hr name params).1 route hmem hname
    exact ⟨url, hurl⟩
  · exact (generate_of_family hr "broken" params).2.2

end UrlRouting
