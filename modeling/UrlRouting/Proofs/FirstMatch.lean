import UrlRouting.Proofs.NameIndex
import UrlRouting.Regex.ProgramSize

/-!
# The first route that matches

A request is answered by the first route that accepts its path, so routes that are
registered later, requests, and whatever is done with clones leave the answer as it is.
The storages change all along; what a route answers does not depend on them.

Main statement: `first_match_of_family`.
-/

namespace UrlRouting

variable {τ : Type}

/-- The first of several routes that answers with parameters, and its parameters. -/
def IsFirstHit (answer : Route τ → Except RouteError (Option Params))
    (routes : List (Route τ)) (hit : Hit τ) : Prop :=
  ∃ before after, routes = before ++ hit.route :: after ∧
    answer hit.route = .ok (some hit.params) ∧
    ∀ earlier ∈ before, ∀ params, answer earlier ≠ .ok (some params)

/-! ## Routes in order -/

section

variable {answer : Route τ → Except RouteError (Option Params)} {route : Route τ}
  {routes rest : List (Route τ)} {hit : Hit τ} {params : Params}

theorem isFirstHit_cons_of_ok (h : answer route = .ok (some params)) :
    IsFirstHit answer (route :: rest) hit ↔ hit = ⟨route, params⟩ := by
  constructor
  · rintro ⟨before, after, hsplit, hhit, hbefore⟩
    cases before with
    | nil =>
      obtain ⟨rfl, -⟩ := List.cons.inj hsplit
      have hparams : params = hit.params := by simpa using h.symm.trans hhit
      rw [hparams]
    | cons first before =>
      obtain ⟨rfl, -⟩ := List.cons.inj hsplit
      exact absurd h (hbefore _ (List.mem_cons_self ..) params)
  · rintro rfl
    exact ⟨[], rest, rfl, h, List.forall_mem_nil _⟩

theorem isFirstHit_cons_of_not (h : ∀ params, answer route ≠ .ok (some params)) :
    IsFirstHit answer (route :: rest) hit ↔ IsFirstHit answer rest hit := by
  constructor
  · rintro ⟨before, after, hsplit, hhit, hbefore⟩
    cases before with
    | nil =>
      obtain ⟨rfl, rfl⟩ := List.cons.inj hsplit
      exact absurd hhit (h _)
    | cons first before =>
      obtain ⟨rfl, rfl⟩ := List.cons.inj hsplit
      exact ⟨before, after, rfl, hhit,
        fun earlier hmem => hbefore earlier (List.mem_cons_of_mem _ hmem)⟩
  · rintro ⟨before, after, rfl, hhit, hbefore⟩
    exact ⟨route :: before, after, rfl, hhit, List.forall_mem_cons.mpr ⟨h, hbefore⟩⟩

/-- There is a first route that answers with parameters if there is one at all. -/
theorem exists_isFirstHit_iff :
    (∃ hit, IsFirstHit answer routes hit) ↔
      ∃ route ∈ routes, ∃ params, answer route = .ok (some params) := by
  constructor
  · rintro ⟨hit, before, after, rfl, hhit, -⟩
    exact ⟨hit.route, by simp, hit.params, hhit⟩
  · rintro ⟨route, hmem, params, h⟩
    induction routes with
    | nil => cases hmem
    | cons first rest ih =>
      by_cases hfirst : ∃ params, answer first = .ok (some params)
      · obtain ⟨params, hfirst⟩ := hfirst
        exact ⟨⟨first, params⟩, (isFirstHit_cons_of_ok hfirst).mpr rfl⟩
      · rw [not_exists] at hfirst
        rcases List.mem_cons.mp hmem with rfl | hmem
        · exact absurd h (hfirst params)
        · obtain ⟨hit, hhit⟩ := ih hmem
          exact ⟨hit, (isFirstHit_cons_of_not hfirst).mpr hhit⟩

/-- Routes behind the first hit do not matter. -/
theorem IsFirstHit.append (h : IsFirstHit answer routes hit) (more : List (Route τ)) :
    IsFirstHit answer (routes ++ more) hit := by
  obtain ⟨before, after, rfl, hhit, hbefore⟩ := h
  exact ⟨before, after ++ more, by simp, hhit, hbefore⟩

end

/-! ## Tables -/

namespace Table

variable [Regex.SizeLimit] {types : MatchTypes} {path request url : String}
  {routes : List (Route τ)} {hit : Hit τ}

theorem firstHit_eq_some_iff :
    firstHit types path request routes = some hit ↔
      IsFirstHit (fun route => routeAnswer types route.methods route.template path request)
        routes hit := by
  induction routes with
  | nil =>
    constructor
    · intro h
      cases h
    · rintro ⟨before, after, hsplit, -⟩
      simp at hsplit
  | cons route rest ih =>
    unfold firstHit
    split
    · next params hanswer =>
      rw [isFirstHit_cons_of_ok hanswer, Option.some.injEq, eq_comm]
    · next hnot => rw [isFirstHit_cons_of_not hnot, ih]

/-- A table answers with the first route that accepts the path of the request. -/
theorem matchRequest_eq_some_iff {t : Table τ} :
    t.matchRequest url request = some hit ↔ ∃ path, t.requestPath url = some path ∧
      IsFirstHit (fun route => routeAnswer t.types route.methods route.template path request)
        t.routes hit := by
  unfold matchRequest
  rw [Option.bind_eq_some_iff]
  simp only [firstHit_eq_some_iff]

/-- More routes behind those of a table leave what it matches. -/
theorem matchRequest_of_append {t t' : Table τ} {more : List (Route τ)}
    (hbase : t'.base = t.base)
    (htypes : t'.types = t.types) (hroutes : t'.routes = t.routes ++ more)
    (h : t.matchRequest url request = some hit) :
    t'.matchRequest url request = some hit := by
  obtain ⟨path, hpath, hhit⟩ := matchRequest_eq_some_iff.mp h
  rw [matchRequest_eq_some_iff, htypes, hroutes]
  refine ⟨path, ?_, hhit.append more⟩
  unfold requestPath at hpath ⊢
  rw [hbase, hpath]

end Table

/-! ## Routers -/

/-- The calls that leave the base path and the match types of a router. -/
def RouterCall.keepsHits : RouterCall τ → Bool
  | .addTypes _ | .setBase _ => false
  | _ => true

namespace Router

/-- A router with the same base path and match types, and with more routes
behind those of another one, or with the same. -/
structure Extends (r r' : Router τ) : Prop where
  base_eq : r'.base = r.base
  types_eq : r'.types = r.types
  grown : r.Grown r'

theorem Extends.refl (r : Router τ) : r.Extends r :=
  ⟨rfl, rfl, .refl r⟩

theorem Extends.trans {a b c : Router τ} (hab : a.Extends b) (hbc : b.Extends c) :
    a.Extends c where
  base_eq := hbc.base_eq.trans hab.base_eq
  types_eq := hbc.types_eq.trans hab.types_eq
  grown := hab.grown.trans hbc.grown

theorem extends_pushAll (r : Router τ) (routes : List (Route τ)) :
    r.Extends (r.pushAll routes) where
  base_eq := by
    induction routes generalizing r with
    | nil => rfl
    | cons route rest ih => exact ih (r.push route)
  types_eq := congrArg Matcher.types (matcher_pushAll r routes)
  grown := ⟨routes, routes_pushAll r routes⟩

theorem Registers.extends {r : Router τ} {offered more : List (Route τ)} {s s' : Session}
    {answer : Router τ × Except RouteError Unit}
    (h : r.Registers offered more s answer s') :
    r.Extends answer.1 := by
  rw [h.router_eq]
  exact extends_pushAll r more

theorem extends_perform [Regex.SizeLimit] (r : Router τ) {c : RouterCall τ}
    (hc : c.keepsHits = true) (s : Session) : r.Extends (r.perform c s).1.1 := by
  cases c with
  | add route =>
    obtain ⟨more, hmore⟩ := leads_add_registers r route s
    exact hmore.extends
  | addVerb verb template target name =>
    obtain ⟨more, hmore⟩ := leads_add_registers r (verb.route template target name) s
    exact hmore.extends
  | addAll routes =>
    obtain ⟨more, hmore⟩ := leads_addAll r routes s
    exact hmore.extends
  | addTypes types => cases hc
  | setBase base => cases hc
  | routes => exact .refl r
  | named name => exact .refl r
  | generate name params => exact .refl r
  | matchRequest url request => exact .refl r

end Router

/-- At the end of every run of a family of routers, a router matches a request
exactly if the URL lies behind the base path and some route accepts what is left
of it, and the hit is then the first such route with its parameters. In every
further run of the family in which the router gets no match types and no base
path, whatever else it and the other members are asked, the same request leads
to the same hit. -/
theorem first_match_of_family [Regex.SizeLimit] {settings : RouterSettings}
    {steps : List (FamilyStep (RouterCall τ))} {s : Session} {member : Nat} {r : Router τ}
    (hr : (startFamily (Router.create settings) Router.perform steps s).1.1[member]? = some r)
    (url request : String) :
    let now := (startFamily (Router.create settings) Router.perform steps s).2
    let answer := fun (path : String) (route : Route τ) =>
      (r.matcher.matchRoute route.methods route.template path request now).1
    ((∃ hit, (r.matchRequest url request now).1 = some hit) ↔
      ∃ path, r.requestPath url = some path ∧
        ∃ route ∈ r.routes, ∃ params, answer path route = .ok (some params)) ∧
    (∀ hit, (r.matchRequest url request now).1 = some hit ↔
      ∃ path, r.requestPath url = some path ∧ IsFirstHit (answer path) r.routes hit) ∧
    ∀ later, (∀ c, .call member c ∈ later → c.keepsHits = true) →
      ∃ r', (startFamily (Router.create settings) Router.perform (steps ++ later) s).1.1[member]? =
          some r' ∧
        ∀ hit, (r.matchRequest url request now).1 = some hit →
          (r'.matchRequest url request
            (startFamily (Router.create settings) Router.perform (steps ++ later) s).2).1 =
              some hit := by
  intro now answer
  have hmem := List.mem_of_getElem? hr
  obtain ⟨-, hmatch⟩ := indexed_of_family hmem
  have hanswer : ∀ path, answer path =
      fun route => routeAnswer r.types route.methods route.template path request := by
    intro path
    funext route
    obtain ⟨owners, -, howns, -, hfaithful⟩ := member_of_startFamily Router.transparent
      (fun _ => Router.grows_create settings) steps s hmem
    exact (Matcher.keeps_matchRoute howns _ _ path request now hfaithful).1
  have hfirst : ∀ hit, (r.matchRequest url request now).1 = some hit ↔
      ∃ path, r.requestPath url = some path ∧ IsFirstHit (answer path) r.routes hit := by
    intro hit
    rw [hmatch]
    simp only [hanswer]
    exact Table.matchRequest_eq_some_iff
  refine ⟨?_, hfirst, ?_⟩
  · simp only [hfirst]
    rw [exists_comm]
    simp only [exists_and_left, exists_isFirstHit_iff]
  · intro later hlater
    -- the later steps start from the members that the first ones leave
    let family := startFamily (Router.create settings) Router.perform steps s
    obtain ⟨r', hr', hextends⟩ := related_runFamily_of_calls Router.Extends.refl
      Router.Extends.trans later hr (fun c hc r s => Router.extends_perform r (hlater c hc) s)
      family.2
    have hlast : (startFamily (Router.create settings) Router.perform
        (steps ++ later) s).1.1[member]? = some r' := by
      rw [← hr']
      exact congrArg (·[member]?) (members_runFamily_append steps later _ _)
    refine ⟨r', hlast, fun hit hhit => ?_⟩
    rw [hmatch] at hhit
    rw [(indexed_of_family (List.mem_of_getElem? hlast)).2]
    obtain ⟨more, hmore⟩ := hextends.grown
    have hbase : r'.table.base = r.table.base := hextends.base_eq
    have htypes : r'.table.types = r.table.types := hextends.types_eq
    exact Table.matchRequest_of_append hbase htypes hmore hhit

/-- A route that takes every path is registered before a list that stops at its second
route, and a clone changes the type of `id`. The user is found where it was. -/
theorem first_match_of_family_user :
    let user : Route String := ⟨"GET", "/users/[i:id]", "user", some "user"⟩
    let form : Route String := ⟨"POST", "/users/[i:id]", "form", none⟩
    let any : Route String := ⟨"GET", "*", "any", none⟩
    let me : Route String := ⟨"GET", "/users/[h:id]", "me", some "me"⟩
    let steps : List (FamilyStep (RouterCall String)) := [.call 0 (.addAll [form, user]), .clone 0]
    let later : List (FamilyStep (RouterCall String)) := [.call 0 (.add any),
      .call 1 (.addTypes [("i", "[a-z]+")]), .call 0 (.addAll [me, ⟨"GET", "/x", "x", some "me"⟩]),
      .call 0 (.matchRequest "/users/a" "GET")]
    let family := startFamily (Router.create ⟨true, ""⟩) Router.perform steps .start
    let r : Router String := ⟨[form, user], [("user", 1)], "", ⟨.builtIn, ⟨0, true⟩⟩⟩
    let hit : Hit String := ⟨user, ⟨[("id", "7")]⟩⟩
    family.1.1[0]? = some r ∧ (∀ c, .call 0 c ∈ later → c.keepsHits = true) ∧
      (r.matchRequest "/users/7?tab=posts" "GET" family.2).1 = some hit ∧
      (∃ path, r.requestPath "/users/7?tab=posts" = some path ∧
        IsFirstHit (fun route =>
          (r.matcher.matchRoute route.methods route.template path "GET" family.2).1)
          r.routes hit) ∧
      ∃ r', (startFamily (Router.create ⟨true, ""⟩) Router.perform
          (steps ++ later) .start).1.1[0]? = some r' ∧
        (r'.matchRequest "/users/7?tab=posts" "GET" (startFamily (Router.create ⟨true, ""⟩)
          Router.perform (steps ++ later) .start).2).1 = some hit := by
  intro user form any me steps later family r hit
  have hr : family.1.1[0]? = some r := by decide +kernel
  have hhit : (r.matchRequest "/users/7?tab=posts" "GET" family.2).1 = some hit := by
    decide +kernel
  have hlater : ∀ c, .call 0 c ∈ later → c.keepsHits = true := by
    intro c hc
    simp only [later, List.mem_cons, FamilyStep.call.injEq, List.not_mem_nil, or_false] at hc
    rcases hc with ⟨-, rfl⟩ | ⟨hmember, -⟩ | ⟨-, rfl⟩ | ⟨-, rfl⟩
    · rfl
    · cases hmember
    · rfl
    · rfl
  obtain ⟨-, hfirst, hkept⟩ := first_match_of_family hr "/users/7?tab=posts" "GET"
  obtain ⟨r', hr', hhits⟩ := hkept later hlater
  exact ⟨hr, hlater, hhit, (hfirst hit).mp hhit, r', hr', hhits hit hhit⟩

end UrlRouting
