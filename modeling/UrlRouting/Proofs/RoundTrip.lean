import UrlRouting.Proofs.BasePath
import UrlRouting.Proofs.FirstMatch
import UrlRouting.Proofs.Template.Filling
import UrlRouting.Proofs.Template.Matching
import UrlRouting.Regex.ProgramSize

/-!
# Matching and then generating

The URL that a router generates from the parameters of a match is the one that was
matched, up to its query. The parts that have to fit together are the cut of the path
and the filling of the template, the base path that is taken away and put back, and the
index that leads from the name of the route back to the route.

Main statement: `generate_of_matchRequest`.
-/

namespace UrlRouting

/-- A template that writes the path again from the parameters of a match: if it has
blocks, it is plain and all of them have names. -/
def Reversible (types : MatchTypes) (template : String) : Prop :=
  hasBracket template = true → ∀ segments, readTemplate template = .ok segments →
    (∀ s ∈ segments, s.Plain types) ∧ ∀ b ∈ blocksOf segments, b.name?.isSome = true

/-! ## One route -/

/-- The path of a plain template with named blocks is written again by its captures. -/
theorem fill_captures [Regex.SizeLimit] {types : MatchTypes} {template path : String}
    {segments : List Segment}
    {c : CompiledPattern} {params : Params} (hraw : isRaw template = false)
    (hsegments : readTemplate template = .ok segments)
    (hplain : ∀ s ∈ segments, s.Plain types)
    (hnamed : ∀ b ∈ blocksOf segments, b.name?.isSome = true)
    (hcompile : compileTemplate types template = .ok c)
    (hcaptures : c.captures path = some params) :
    fill params.get? segments = path.toList := by
  obtain ⟨hexpr, hdistinct⟩ := expr_of_compileTemplate hraw hsegments hplain hcompile
  obtain ⟨values, hpreferred, hentries⟩ := (captures_eq_some_iff hexpr path params).mp hcaptures
  exact fill_params hpreferred.cut hnamed hdistinct hentries

/-- Parameters come out of a pattern only if the template compiles. -/
theorem exists_of_patternAnswer [Regex.SizeLimit] {types : MatchTypes}
    {template path : String}
    {params : Params} (h : patternAnswer types template path = .ok (some params)) :
    ∃ c, compileTemplate types template = .ok c ∧ c.captures path = some params := by
  unfold patternAnswer at h
  cases hcompile : compileTemplate types template with
  | error e =>
    rw [hcompile] at h
    cases h
  | ok c =>
    rw [hcompile] at h
    exact ⟨c, rfl, Except.ok.inj h⟩

/-- What a route accepted is generated again from the parameters. -/
theorem generateUrl_of_routeAnswer [Regex.SizeLimit] {types : MatchTypes}
    {methods template path request base : String} {params : Params}
    (hwildcard : template ≠ wildcard) (hraw : isRaw template = false)
    (hreversible : Reversible types template)
    (h : routeAnswer types methods template path request = .ok (some params)) :
    generateUrl base template params = .ok (base ++ path) := by
  unfold routeAnswer at h
  rw [if_neg hwildcard, hraw] at h
  split at h
  · cases h
  unfold generateUrl
  rw [hraw, Bool.false_or]
  cases hbracket : hasBracket template with
  | false =>
    -- the template is the path, whatever text it is
    rw [hbracket] at h
    have heq : template = path := by
      by_cases heq : template = path
      · exact heq
      · simp [heq] at h
    rw [← heq]
    rfl
  | true =>
    rw [hbracket] at h
    simp only [Bool.false_eq_true, if_false, Bool.not_true] at h ⊢
    split at h
    · obtain ⟨c, hcompile, hcaptures⟩ := exists_of_patternAnswer h
      obtain ⟨segments, hsegments⟩ := exists_segments_of_compileTemplate hraw hcompile
      obtain ⟨hplain, hnamed⟩ := hreversible hbracket segments hsegments
      have hfill := fill_captures hraw hsegments hplain hnamed hcompile hcaptures
      rw [hsegments]
      show Except.ok (base ++ String.ofList (fill params.get? segments)) = _
      rw [hfill, String.ofList_toList]
    · cases h

/-! ## The whole table -/

/-- The route of a hit stands in the table and accepted the path. -/
theorem Table.exists_of_firstHit [Regex.SizeLimit] {τ : Type} {types : MatchTypes}
    {path request : String} {routes : List (Route τ)} {hit : Hit τ}
    (h : firstHit types path request routes = some hit) :
    ∃ i : Nat, routes[i]? = some hit.route ∧
      routeAnswer types hit.route.methods hit.route.template path request =
        .ok (some hit.params) := by
  obtain ⟨before, after, rfl, hanswer, -⟩ := firstHit_eq_some_iff.mp h
  exact ⟨before.length, by simp, hanswer⟩

/-- A path is the base path and what is left behind it. -/
theorem eq_append_of_relativePath {base path rest : List Char}
    (h : relativePath base path = some rest) : path = base ++ rest :=
  (relativePath_eq_some_iff.mp h).1

/-- A router generates from the parameters of a match the URL that it matched, without
its query. -/
theorem generate_of_matchRequest [Regex.SizeLimit] {τ : Type} {settings : RouterSettings}
    {steps : List (FamilyStep (RouterCall τ))} {s : Session} {r : Router τ}
    (hr : r ∈ (startFamily (Router.create settings) Router.perform steps s).1.1)
    {url request name : String} {hit : Hit τ}
    (hmatch : (r.matchRequest url request
      (startFamily (Router.create settings) Router.perform steps s).2).1 = some hit)
    (hname : hit.route.name = some name) (hwildcard : hit.route.template ≠ wildcard)
    (hraw : isRaw hit.route.template = false)
    (hreversible : Reversible r.types hit.route.template) :
    r.generate name hit.params = .ok (String.ofList (withoutQuery url.toList)) := by
  obtain ⟨hindexed, hanswers⟩ := indexed_of_family hr
  rw [hanswers] at hmatch
  obtain ⟨path, hpath, hhit⟩ := Option.bind_eq_some_iff.mp hmatch
  obtain ⟨rest, hrest, rfl⟩ := Option.map_eq_some_iff.mp hpath
  -- the name leads back to the route that was hit
  obtain ⟨i, hat, hroute⟩ := Table.exists_of_firstHit hhit
  have hnamed : r.named? name = some hit.route := hindexed.named?_eq hat hname
  unfold Router.generate
  rw [hnamed]
  dsimp only
  rw [generateUrl_of_routeAnswer hwildcard hraw hreversible hroute,
    eq_append_of_relativePath hrest, String.ofList_append]
  show _ = Except.ok (String.ofList r.base.toList ++ _)
  rw [String.ofList_toList]

/-- A route with an optional block under a base path: the block is left out of the
request and of the URL, and the query of the request is dropped. -/
theorem generate_of_matchRequest_user :
    let route : Route String := ⟨"GET", "/users/[i:id]/[a:action]?", "users", some "user"⟩
    let family := startFamily (Router.create ⟨true, "/api"⟩) Router.perform
      [.call 0 (.add route)] .start
    let r : Router String := ⟨[route], [("user", 0)], "/api", ⟨.builtIn, ⟨0, true⟩⟩⟩
    let hit : Hit String := ⟨route, ⟨[("id", "42")]⟩⟩
    r ∈ family.1.1 ∧ (r.matchRequest "/api/users/42?page=2" "GET" family.2).1 = some hit ∧
      hit.route.name = some "user" ∧ hit.route.template ≠ wildcard ∧
      isRaw hit.route.template = false ∧ Reversible r.types hit.route.template ∧
      r.generate "user" hit.params = .ok "/api/users/42" := by
  intro route family r hit
  have hr : r ∈ family.1.1 := by decide +kernel
  have hmatch : (r.matchRequest "/api/users/42?page=2" "GET" family.2).1 = some hit := by
    decide +kernel
  have hreversible : Reversible r.types hit.route.template := by
    intro _ segments hsegments
    have hread : readTemplate "/users/[i:id]/[a:action]?" = .ok [.literal "/users",
      .block ⟨some .slash, "i", some "id", false, 6, 13⟩,
      .block ⟨some .slash, "a", some "action", true, 13, 25⟩] := by decide +kernel
    rw [Except.ok.inj (hsegments.symm.trans hread)]
    decide +kernel
  exact ⟨hr, hmatch, rfl, by decide +kernel, by decide +kernel, hreversible,
    generate_of_matchRequest hr hmatch rfl (by decide +kernel) (by decide +kernel) hreversible⟩

end UrlRouting
