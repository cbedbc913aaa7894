import UrlRouting.Proofs.Cache.Contents
import UrlRouting.Proofs.Clones.Transparency

/-!
# What a call does to a router

A call appends some of the routes that it offers and binds templates of the router's
routes in one storage, which is the storage that the router has afterwards. New match
types give the router a new storage; nothing else does.

Main statement: `Router.leads_perform`.
-/

namespace UrlRouting

variable {τ : Type}

/-- The routes that a call asks to register. -/
def RouterCall.offered : RouterCall τ → List (Route τ)
  | .add route => [route]
  | .addVerb verb template target name => [verb.route template target name]
  | .addAll all => all
  | _ => []

/-- Whether the last new match types, if there were any, fitted all routes: what was so
before a call is changed by new match types only. -/
def RouterCall.settled (before : Bool) : RouterCall τ → RouterAnswer τ → Bool
  | .addTypes _, .outcome o => o.isOk
  | _, _ => before

/-- What holds of a call on a router in a session, its answer and the session
behind it. -/
structure Router.Called (r : Router τ) (c : RouterCall τ) (s : Session)
    (answer : Router τ × RouterAnswer τ) (s' : Session) : Prop where
  appends : ∃ more, more <+: c.offered ∧ answer.1.routes = r.routes ++ more ∧
    (answer.2 = .outcome (.ok ()) → more = c.offered)
  enabled_eq : answer.1.matcher.cache.enabled = r.matcher.cache.enabled
  storage : answer.1.matcher.cache.storage = r.matcher.cache.storage ∨
    (answer.1.matcher.cache.storage = s.storages.length ∧ s.storages.length < s'.storages.length)
  adds : s.Adds answer.1.matcher.cache.storage (answer.1.routes.map (·.template)) s'
  ready : r.matcher.cache.storage < s.storages.length → ∀ before,
    (before = true → ∀ route ∈ r.routes, r.matcher.Ready route.template s) →
      c.settled before answer.2 = true →
        ∀ route ∈ answer.1.routes, answer.1.matcher.Ready route.template s'

namespace Router

variable {r : Router τ} {c : RouterCall τ} {s s' : Session}

/-- A call that leaves the router as it is. -/
theorem Called.of_unchanged (a : RouterAnswer τ) (hoffered : c.offered = [])
    (hsettled : ∀ before, c.settled before a = before)
    (hadds : s.Adds r.matcher.cache.storage (r.routes.map (·.template)) s') :
    r.Called c s (r, a) s' where
  appends := ⟨[], List.nil_prefix, (List.append_nil _).symm, fun _ => hoffered.symm⟩
  enabled_eq := rfl
  storage := .inl rfl
  adds := hadds
  ready _ before hbefore hnow route hmem :=
    (hbefore (hsettled before ▸ hnow) route hmem).adds hadds

/-- A call that registers routes. -/
theorem Called.of_registers {answer : Router τ × Except RouteError Unit}
    {more : List (Route τ)} (hsettled : ∀ before a, c.settled before a = before)
    (h : r.Registers c.offered more s answer s') :
    r.Called c s (answer.1, .outcome answer.2) s' := by
  have hroutes : answer.1.routes = r.routes ++ more := by rw [h.router_eq, routes_pushAll]
  have hmatcher : answer.1.matcher = r.matcher := by rw [h.router_eq, matcher_pushAll]
  refine ⟨⟨more, h.begins, hroutes, fun hok => h.all ?_⟩, by rw [hmatcher], .inl (by rw [hmatcher]),
    ?_, fun hlt before hbefore hnow route hmem => ?_⟩
  · injection hok
  · rw [hmatcher]
    refine h.adds.mono fun key hmem => ?_
    rw [hroutes, List.map_append]
    exact List.mem_append_right _ hmem
  · rw [hmatcher]
    rw [hroutes] at hmem
    rcases List.mem_append.mp hmem with hmem | hmem
    · exact (hbefore (hsettled before _ ▸ hnow) route hmem).adds h.adds
    · exact h.ready hlt route hmem

/-- Registering one route registers the first routes of a list of one. -/
theorem leads_add_registers [Regex.SizeLimit] (r : Router τ) (route : Route τ) :
    Leads (r.add route) fun s answer s' => ∃ more, r.Registers [route] more s answer s' := by
  refine (leads_add r route).imp fun s answer s' h => ?_
  rcases h with ⟨⟨e, rfl⟩, hs⟩ | ⟨rfl, hadds, hready⟩
  · exact ⟨[], rfl, List.nil_prefix, (fun hok => nomatch hok), .of_storages_eq hs,
      fun _ _ h => nomatch h⟩
  · refine ⟨[route], rfl, List.prefix_rfl, fun _ => rfl, hadds, fun hlt other hmem => ?_⟩
    rw [List.mem_singleton.mp hmem]
    exact hready hlt

/-- What every call does. -/
theorem leads_perform [Regex.SizeLimit] (r : Router τ) (c : RouterCall τ) :
    Leads (r.perform c) fun s answer s' => r.Called c s answer s' := by
  have hsame : ∀ s : Session, s.Adds r.matcher.cache.storage (r.routes.map (·.template)) s :=
    fun _ => .of_storages_eq rfl
  cases c with
  | add route =>
    refine (leads_add_registers r route).bind fun answer => leads_pure fun s' s h => ?_
    obtain ⟨more, hmore⟩ := h
    exact .of_registers (fun _ _ => rfl) hmore
  | addVerb verb template target name =>
    refine (leads_add_registers r (verb.route template target name)).bind
      fun answer => leads_pure fun s' s h => ?_
    obtain ⟨more, hmore⟩ := h
    exact .of_registers (fun _ _ => rfl) hmore
  | addAll routes =>
    refine (leads_addAll r routes).bind fun answer => leads_pure fun s' s h => ?_
    obtain ⟨more, hmore⟩ := h
    exact .of_registers (fun _ _ => rfl) hmore
  | addTypes types =>
    refine (leads_addTypes r types).bind fun answer => leads_pure fun s' s h => ?_
    obtain ⟨r', outcome⟩ := answer
    obtain ⟨rfl, hlt, hadds, hready⟩ := h
    refine ⟨⟨[], List.nil_prefix, (List.append_nil _).symm, fun _ => rfl⟩, rfl, .inr ⟨rfl, hlt⟩,
      hadds, fun _ before _ hnow => hready ?_⟩
    cases outcome with
    | error e => cases hnow
    | ok _ => rfl
  | setBase base =>
    refine leads_pure fun s => ⟨⟨[], List.nil_prefix, (List.append_nil _).symm, fun _ => rfl⟩,
      rfl, .inl rfl, hsame s, fun _ before hbefore hnow => hbefore hnow⟩
  | routes => exact leads_pure fun s => .of_unchanged _ rfl (fun _ => rfl) (hsame s)
  | named name => exact leads_pure fun s => .of_unchanged _ rfl (fun _ => rfl) (hsame s)
  | generate name params => exact leads_pure fun s => .of_unchanged _ rfl (fun _ => rfl) (hsame s)
  | matchRequest url request =>
    exact (adds_matchRequest r url request).bind
      fun hit => leads_pure fun s' s h => .of_unchanged _ rfl (fun _ => rfl) h

end Router

end UrlRouting
