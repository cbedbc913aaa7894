import UrlRouting.Proofs.Clones.Calls
import UrlRouting.Proofs.Registration
import UrlRouting.Regex.ProgramSize

/-!
# Requests compile nothing

A router is settled when the last new match types that it or its originals were given,
if any, fitted every route. Every template of a settled router compiles, and is bound in
the router's storage if its cache is enabled; so a request finds every pattern bound and
changes no storage. Whatever is bound in the storages of a family is the template of a
route that some member has, whether settled or not.

Main statement: `quiet_of_family`.
-/

namespace UrlRouting

/-! ## Requests to settled matchers -/

/-- The events of a pattern that is compiled, or cannot be. -/
def Event.ofCompiling : Event → Bool
  | .patternCached _ _ _ => true
  | .patternRefused _ _ => true
  | .routeSkipped _ => true
  | _ => false

/-- Between two sessions nothing was bound, and no compiling was noted. Under an enabled
cache nothing was compiled at all. -/
structure Session.Quiet (enabled : Bool) (s s' : Session) : Prop where
  storages_eq : s'.storages = s.storages
  numbered_eq : enabled = true → s'.numbered = s.numbered
  log : ∃ events, s'.log = events ++ s.log ∧ ∀ event ∈ events, event.ofCompiling = false

namespace Session.Quiet

variable {enabled : Bool} {s s' s'' : Session}

theorem refl (s : Session) : s.Quiet enabled s :=
  ⟨rfl, fun _ => rfl, [], rfl, fun _ h => nomatch h⟩

theorem trans (h : s.Quiet enabled s') (h' : s'.Quiet enabled s'') :
    s.Quiet enabled s'' where
  storages_eq := h'.storages_eq.trans h.storages_eq
  numbered_eq henabled := (h'.numbered_eq henabled).trans (h.numbered_eq henabled)
  log := by
    obtain ⟨events, hlog, hevents⟩ := h.log
    obtain ⟨more, hlog', hmore⟩ := h'.log
    refine ⟨more ++ events, by rw [hlog', hlog, List.append_assoc], fun event hmem => ?_⟩
    rcases List.mem_append.mp hmem with hmem | hmem
    · exact hmore event hmem
    · exact hevents event hmem

end Session.Quiet

theorem quiet_note {enabled : Bool} {event : Event} (h : event.ofCompiling = false) :
    Leads (note event) fun s _ s' => s.Quiet enabled s' :=
  fun _ => ⟨rfl, fun _ => rfl, [event], rfl, fun _ hmem => List.mem_singleton.mp hmem ▸ h⟩

/-- A template can be matched, and matching it compiles nothing. -/
structure Matcher.Settled [Regex.SizeLimit] (m : Matcher) (template : String)
    (s : Session) : Prop where
  prepared : prepared m.types template = .ok ()
  ready : m.Ready template s

theorem Matcher.Settled.quiet [Regex.SizeLimit] {m : Matcher} {template : String}
    {enabled : Bool} {s s' : Session}
    (h : m.Settled template s) (hquiet : s.Quiet enabled s') : m.Settled template s' := by
  have hadds : s.Adds m.cache.storage [] s' := .of_storages_eq hquiet.storages_eq
  exact ⟨h.prepared, h.ready.adds hadds⟩

namespace Matcher

variable [Regex.SizeLimit] {m : Matcher} {template : String}

theorem quiet_compile (hneeds : needsPattern template = true) :
    Leads (m.compile template) fun s answer s' => m.Settled template s →
      (∃ pattern, answer = .ok pattern) ∧ s.Quiet m.cache.enabled s' := by
  cases henabled : m.cache.enabled with
  | true =>
    refine (leads_compile henabled template).imp fun s answer s' h hsettled => ?_
    have hbound := hsettled.ready hneeds henabled
    rcases h with ⟨-, hok, rfl⟩ | ⟨hfree, -⟩
    · exact ⟨hok, .refl _⟩
    · exact absurd hbound hfree
  | false =>
    -- without a cache the pattern is compiled again, and that it can be is all
    -- that counts
    by_cases hprepared : UrlRouting.prepared m.types template = .ok ()
    · obtain ⟨compiled, hcompiled⟩ := prepared_eq_ok_iff.mp hprepared hneeds
      intro s _
      have hfree : m.cache.bound? template s = none := by
        rw [Cache.bound?, henabled]
        rfl
      rw [m.compile_eq, hfree, hcompiled]
      dsimp only
      unfold Cache.retain
      rw [henabled]
      exact ⟨⟨_, rfl⟩, rfl, (fun h => nomatch h), [], rfl, fun _ h => nomatch h⟩
    · exact fun s hsettled => absurd hsettled.prepared hprepared

theorem quiet_runPattern (hneeds : needsPattern template = true) (path : String) :
    Leads (m.runPattern template path) fun s answer s' => m.Settled template s →
      (∃ params, answer = .ok params) ∧ s.Quiet m.cache.enabled s' := by
  unfold Matcher.runPattern
  refine (quiet_compile hneeds).bind fun answer => ?_
  cases answer with
  | error e =>
    refine leads_pure fun s' s h hsettled => ?_
    obtain ⟨⟨_, hok⟩, -⟩ := h hsettled
    cases hok
  | ok pattern => exact leads_pure fun s' s h hsettled => ⟨⟨_, rfl⟩, (h hsettled).2⟩

/-- A settled template is matched without an error and without compiling it. -/
theorem quiet_matchRoute (m : Matcher) (methods template path request : String) :
    Leads (m.matchRoute methods template path request) fun s answer s' => m.Settled template s →
      (∃ params, answer = .ok params) ∧ s.Quiet m.cache.enabled s' := by
  have hpure : ∀ params : Option Params,
      Leads (pure (.ok params) : Action (Except RouteError (Option Params)))
        fun s answer s' => m.Settled template s →
          (∃ params, answer = .ok params) ∧ s.Quiet m.cache.enabled s' :=
    fun params => leads_pure fun s _ => ⟨⟨params, rfl⟩, .refl s⟩
  unfold Matcher.matchRoute
  split
  · exact hpure _
  split
  · exact hpure _
  next hwild =>
  split
  · next hraw => exact quiet_runPattern (by simp [needsPattern, hwild, hraw]) path
  split
  · exact hpure _
  next hbracket =>
  have hneeds : needsPattern template = true := by
    simp only [Bool.not_eq_true', Bool.not_eq_false] at hbracket
    simp [needsPattern, hwild, hbracket]
  split
  · refine (quiet_note rfl).bind fun _ => leads_pure fun s' s h _ => ⟨⟨_, rfl⟩, h⟩
  · split
    · exact quiet_runPattern hneeds path
    · exact hpure _

end Matcher

namespace Router

variable {τ : Type}

theorem quiet_firstHit [Regex.SizeLimit] (m : Matcher) (path request : String)
    (routes : List (Route τ)) :
    Leads (firstHit m path request routes) fun s _ s' =>
      (∀ route ∈ routes, m.Settled route.template s) → s.Quiet m.cache.enabled s' := by
  induction routes with
  | nil => exact leads_pure fun s _ => .refl s
  | cons route rest ih =>
    unfold firstHit
    refine (m.quiet_matchRoute route.methods route.template path request).bind fun answer => ?_
    cases answer with
    | error e =>
      intro s' s h hsettled
      obtain ⟨⟨_, hok⟩, -⟩ := h (hsettled route (List.mem_cons_self ..))
      cases hok
    | ok found =>
      cases found with
      | none =>
        refine ih.imp fun s' _ s'' hrest s h hsettled => ?_
        obtain ⟨-, hfirst⟩ := h (hsettled route (List.mem_cons_self ..))
        exact hfirst.trans
          (hrest fun other hmem => (hsettled other (List.mem_cons_of_mem _ hmem)).quiet hfirst)
      | some params =>
        exact leads_pure fun s' s h hsettled => (h (hsettled route (List.mem_cons_self ..))).2

/-- A request to a router whose routes are settled compiles nothing. -/
theorem quiet_matchRequest [Regex.SizeLimit] (r : Router τ) (url request : String) :
    Leads (r.matchRequest url request) fun s _ s' =>
      (∀ route ∈ r.routes, r.matcher.Settled route.template s) →
        s.Quiet r.matcher.cache.enabled s' := by
  have hnote : ∀ event : Event, event.ofCompiling = false →
      Leads (note event) fun s _ s' => s.Quiet r.matcher.cache.enabled s' := fun _ => quiet_note
  unfold Router.matchRequest
  split
  · exact (hnote _ rfl).bind fun _ => leads_pure fun _ _ h _ => h
  · next path _ =>
    refine (hnote _ rfl).bind fun _ => (quiet_firstHit r.matcher path request r.routes).bind
      fun hit => ?_
    cases hit <;>
    · refine (hnote _ rfl).bind fun _ => leads_pure fun s₃ s₂ h₃ s₁ h₂ s h₁ hsettled => ?_
      exact (h₁.trans (h₂ fun route hmem => (hsettled route hmem).quiet h₁)).trans h₃

end Router

/-! ## Settled tables -/

namespace Table

variable [Regex.SizeLimit] {τ : Type}

/-- Every route can be matched. -/
def Prepared (t : Table τ) : Prop :=
  ∀ route ∈ t.routes, prepared t.types route.template = .ok ()

theorem Prepared.add {t : Table τ} (h : t.Prepared) (route : Route τ) :
    (t.add route).1.Prepared := by
  intro other hmem
  rw [types_add]
  rcases prepared_of_mem_add hmem with hold | hprepared
  · exact h other hold
  · exact hprepared

/-- New match types settle a table if they fit; no other call unsettles it. -/
theorem prepared_perform {t : Table τ} {before : Bool} (h : before = true → t.Prepared)
    (c : RouterCall τ) (hsettled : c.settled before (t.perform c).2 = true) :
    (t.perform c).1.Prepared := by
  cases c with
  | add route => exact (h hsettled).add route
  | addVerb verb template target name => exact (h hsettled).add _
  | addAll routes => exact addAll_induction (fun _ route h => h.add route) routes (h hsettled)
  | addTypes types =>
    have hok : preparedAll (t.types.extend types) (t.routes.map (·.template)) = .ok () := by
      cases houtcome : preparedAll (t.types.extend types) (t.routes.map (·.template)) with
      | ok _ => rfl
      | error e =>
        have herror : (t.addTypes types).2 = .error e := houtcome
        simp [perform, RouterCall.settled, herror, Except.isOk, Except.toBool] at hsettled
    exact fun route hmem => preparedAll_eq_ok_iff.mp hok _ (List.mem_map_of_mem hmem)
  | setBase base => exact h hsettled
  | routes => exact h hsettled
  | named name => exact h hsettled
  | generate name params => exact h hsettled
  | matchRequest url request => exact h hsettled

end Table

/-! ## Families -/

section Families

variable {τ : Type}

/-- Which members are settled after a step, given the answer to it. -/
def FamilyStep.settled (before : List Bool) :
    FamilyStep (RouterCall τ) → Option (RouterAnswer τ) → List Bool
  | .call i c, some answer => before.modify i fun b => c.settled b answer
  | .call _ _, none => before
  | .clone i, _ => before ++ before[i]?.toList

/-- Which members are settled after the steps of a run, given the answers to them. -/
def settledMembers (before : List Bool) :
    List (FamilyStep (RouterCall τ)) → List (Option (RouterAnswer τ)) → List Bool
  | step :: steps, answer :: answers =>
    settledMembers (step.settled before answer) steps answers
  | _, _ => before

section Places

variable {α β : Type} {members : List α} {known : List β} {i j : Nat} {x : α} {k : β}

theorem getElem?_set_modify {a : α} {f : β → β} (hx : (members.set i a)[j]? = some x)
    (hk : (known.modify i f)[j]? = some k) :
    (x = a ∧ ∃ before, known[i]? = some before ∧ f before = k) ∨
      (members[j]? = some x ∧ known[j]? = some k) := by
  by_cases hij : i = j
  · subst hij
    rw [List.getElem?_set, if_pos rfl] at hx
    simp only [List.getElem?_modify, if_true] at hk
    split at hx <;> cases hx
    exact .inl ⟨rfl, Option.map_eq_some_iff.mp hk⟩
  · rw [List.getElem?_set_ne hij] at hx
    simp only [List.getElem?_modify, hij, if_false, Option.map_eq_map, Option.map_id'] at hk
    exact .inr ⟨hx, hk⟩

/-- What stands at the end again is known to be what it is at its first place. -/
theorem exists_place_of_append (hlength : known.length = members.length)
    (hx : (members ++ members[i]?.toList)[j]? = some x)
    (hk : (known ++ known[i]?.toList)[j]? = some k) :
    ∃ place : Nat, members[place]? = some x ∧ known[place]? = some k := by
  rcases Nat.lt_or_ge j members.length with hlt | hge
  · rw [List.getElem?_append_left hlt] at hx
    rw [List.getElem?_append_left (hlength ▸ hlt)] at hk
    exact ⟨j, hx, hk⟩
  · rw [List.getElem?_append_right hge] at hx
    rw [List.getElem?_append_right (hlength ▸ hge), hlength] at hk
    cases hat : j - members.length with
    | zero =>
      rw [hat, ← List.head?_eq_getElem?, Option.head?_toList] at hx hk
      exact ⟨i, hx, hk⟩
    | succ n =>
      rw [hat] at hx
      cases hi : members[i]? <;> simp [hi] at hx

theorem eq_or_mem_set {r other : α} (hi : members[i]? = some r) (hother : other ∈ members)
    (a : α) : other = r ∨ other ∈ members.set i a := by
  obtain ⟨j, hj⟩ := List.mem_iff_getElem?.mp hother
  by_cases hij : i = j
  · subst hij
    exact .inl (Option.some.inj (hj.symm.trans hi))
  · exact .inr (List.mem_of_getElem? (by rw [List.getElem?_set_ne hij]; exact hj))

end Places

variable [Regex.SizeLimit]

/-- What holds of the members of a family and of the session they share, when the first
storage of the family has a given number. -/
structure Attended (first : Nat) (enabled : Bool) (members : List (Router τ))
    (settled : List Bool) (s : Session) : Prop where
  length_eq : settled.length = members.length
  owned : ∃ owners, Faithful owners s ∧ ∀ r ∈ members, r.matcher.Owns owners
  enabled_eq : ∀ r ∈ members, r.matcher.cache.enabled = enabled
  first_le : ∀ r ∈ members, first ≤ r.matcher.cache.storage
  first_le_length : first ≤ s.storages.length
  settled : ∀ (i : Nat) (r : Router τ), members[i]? = some r → settled[i]? = some true →
    ∀ route ∈ r.routes, r.matcher.Settled route.template s
  keys : ∀ id, first ≤ id → ∀ key ∈ s.keys id,
    ∃ r ∈ members, ∃ route ∈ r.routes, route.template = key

theorem Matcher.Owns.lt {m : Matcher} {owners : Owners} {s : Session} (h : m.Owns owners)
    (hs : Faithful owners s) : m.cache.storage < s.storages.length :=
  hs.length_eq ▸ (List.getElem?_eq_some_iff.mp h).1

/-- A call on a settled member, or new match types that fit, leave a settled member. -/
theorem Router.settled_perform {owners : Owners} {r : Router τ}
    (hm : r.matcher.Owns owners)
    (c : RouterCall τ) {s : Session} (hs : Faithful owners s) {before : Bool}
    (h : before = true → ∀ route ∈ r.routes, r.matcher.Settled route.template s)
    (hsettled : c.settled before (r.perform c s).1.2 = true) :
    ∀ route ∈ (r.perform c s).1.1.routes,
      (r.perform c s).1.1.matcher.Settled route.template (r.perform c s).2 := by
  obtain ⟨more, ⟨-, htable⟩, -⟩ := Router.transparent.grows owners r c hm s hs
  -- what compiles is a matter of the table alone, what is bound one of the session
  have hprepared : (r.perform c s).1.1.table.Prepared := by
    have hanswer : (r.perform c s).1.2 = (r.table.perform c).2 := congrArg Prod.snd htable
    rw [show (r.perform c s).1.1.table = (r.table.perform c).1 from congrArg Prod.fst htable]
    exact Table.prepared_perform (fun hb route hmem => (h hb route hmem).prepared) c
      (hanswer ▸ hsettled)
  have hready := (Router.leads_perform r c s).ready (hm.lt hs) before
    (fun hb route hmem => (h hb route hmem).ready) hsettled
  exact fun route hmem => ⟨hprepared route hmem, hready route hmem⟩

/-! What is known of the members stands in a list beside theirs. -/

namespace Attended

variable {first : Nat} {enabled : Bool} {members : List (Router τ)} {settled : List Bool}
  {s : Session}

/-- A call on a member keeps what holds, with the member as the call leaves it. -/
theorem call (h : Attended first enabled members settled s) {i : Nat} {r : Router τ}
    (hi : members[i]? = some r) (c : RouterCall τ) :
    Attended first enabled (members.set i (r.perform c s).1.1)
      (settled.modify i fun b => c.settled b (r.perform c s).1.2) (r.perform c s).2 := by
  obtain ⟨owners, hs, howns⟩ := h.owned
  have hlt : i < members.length := (List.getElem?_eq_some_iff.mp hi).1
  have hr : r ∈ members := List.mem_of_getElem? hi
  have hcalled := Router.leads_perform r c s
  obtain ⟨more, ⟨hown, -⟩, hs'⟩ := Router.transparent.grows owners r c (howns r hr) s hs
  have hmem : ∀ other ∈ members.set i (r.perform c s).1.1,
      other ∈ members ∨ other = (r.perform c s).1.1 := fun _ => List.mem_or_eq_of_mem_set
  refine ⟨by simp [h.length_eq], ⟨owners ++ more, hs', fun other hother => ?_⟩,
    fun other hother => ?_, fun other hother => ?_,
    Nat.le_trans h.first_le_length hcalled.adds.length_le, fun j other hj hsettled => ?_,
    fun id hid key hkey => ?_⟩
  · rcases hmem other hother with hother | rfl
    · exact (howns other hother).append more
    · exact hown
  · rcases hmem other hother with hother | rfl
    · exact h.enabled_eq other hother
    · exact hcalled.enabled_eq.trans (h.enabled_eq r hr)
  · rcases hmem other hother with hother | rfl
    · exact h.first_le other hother
    · rcases hcalled.storage with hsame | ⟨hnew, -⟩
      · exact hsame ▸ h.first_le r hr
      · exact hnew ▸ h.first_le_length
  · rcases getElem?_set_modify hj hsettled with ⟨rfl, before, hbefore, hnow⟩ | ⟨hj, hsettled⟩
    · exact Router.settled_perform (howns r hr) c hs
        (fun hb => h.settled i r hi (hb ▸ hbefore)) hnow
    · -- the others keep their types, and what is bound for them stays bound
      intro route hroute
      obtain ⟨hprepared, hready⟩ := h.settled j other hj hsettled route hroute
      exact ⟨hprepared, hready.adds hcalled.adds⟩
  · -- a key that was bound before is the template of a route that its member still has
    rcases hcalled.adds.added id key hkey with hkey | ⟨-, hkey⟩
    · obtain ⟨other, hother, route, hroute, rfl⟩ := h.keys id hid key hkey
      rcases eq_or_mem_set hi hother (r.perform c s).1.1 with rfl | hother
      · obtain ⟨appended, -, hroutes, -⟩ := hcalled.appends
        exact ⟨_, List.mem_set hlt _, route, hroutes ▸ List.mem_append_left _ hroute, rfl⟩
      · exact ⟨other, hother, route, hroute, rfl⟩
    · obtain ⟨route, hroute, rfl⟩ := List.mem_map.mp hkey
      exact ⟨_, List.mem_set hlt _, route, hroute, rfl⟩

/-- A clone is settled if its original is. -/
theorem clone (h : Attended first enabled members settled s) (i : Nat) :
    Attended first enabled (members ++ members[i]?.toList) (settled ++ settled[i]?.toList) s := by
  have hmem : ∀ other ∈ members ++ members[i]?.toList, other ∈ members := by
    intro other hother
    rcases List.mem_append.mp hother with hother | hother
    · exact hother
    · exact List.mem_of_getElem? (Option.mem_toList.mp hother)
  obtain ⟨owners, hs, howns⟩ := h.owned
  refine ⟨?_, ⟨owners, hs, fun other hother => howns other (hmem other hother)⟩,
    fun other hother => h.enabled_eq other (hmem other hother),
    fun other hother => h.first_le other (hmem other hother), h.first_le_length,
    fun j other hj hsettled => ?_, fun id hid key hkey => ?_⟩
  · rcases Nat.lt_or_ge i members.length with hlt | hge
    · rw [List.getElem?_eq_getElem hlt, List.getElem?_eq_getElem (h.length_eq ▸ hlt)]
      simp [h.length_eq]
    · rw [List.getElem?_eq_none hge, List.getElem?_eq_none (h.length_eq ▸ hge)]
      simp [h.length_eq]
  · obtain ⟨place, hplace, hknown⟩ := exists_place_of_append h.length_eq hj hsettled
    exact h.settled place other hplace hknown
  · obtain ⟨other, hother, hroute⟩ := h.keys id hid key hkey
    exact ⟨other, List.mem_append_left _ hother, hroute⟩

end Attended

theorem leads_stepFamily_attended (first : Nat) (enabled : Bool)
    (members : List (Router τ)) (settled : List Bool) (step : FamilyStep (RouterCall τ)) :
    Leads (stepFamily Router.perform members step) fun s answer s' =>
      Attended first enabled members settled s →
        Attended first enabled answer.1 (step.settled settled answer.2) s' := by
  cases step with
  | call i c =>
    cases hi : members[i]? with
    | none =>
      simp only [stepFamily, hi]
      exact leads_pure fun _ h => h
    | some r =>
      simp only [stepFamily, hi]
      exact fun s h => h.call hi c
  | clone i => exact leads_pure fun _ h => h.clone i

theorem leads_runFamily_attended (first : Nat) (enabled : Bool)
    (steps : List (FamilyStep (RouterCall τ))) :
    ∀ (members : List (Router τ)) (settled : List Bool),
      Leads (runFamily Router.perform members steps) fun s answer s' =>
        Attended first enabled members settled s →
          Attended first enabled answer.1 (settledMembers settled steps answer.2) s' := by
  induction steps with
  | nil => exact fun _ _ => leads_pure fun _ h => h
  | cons step rest ih =>
    intro members settled
    unfold runFamily
    refine (leads_stepFamily_attended first enabled members settled step).bind fun answer => ?_
    refine (ih answer.1 (step.settled settled answer.2)).bind fun others => ?_
    exact leads_pure fun s'' s' hrest s hfirst h => hrest (hfirst h)

/-- A new router is settled, as it has no routes, and nothing is bound in its
storage. -/
theorem attended_create (settings : RouterSettings) (s : Session) :
    Attended s.storages.length settings.cacheEnabled
      [(Router.create (τ := τ) settings s).1] [true] (Router.create (τ := τ) settings s).2 := by
  obtain ⟨more, ⟨howns, -⟩, hs⟩ := Router.grows_create (τ := τ) settings s (faithful_unowned s)
  have hstorages : (Router.create (τ := τ) settings s).2.storages = s.storages ++ [[]] := rfl
  have honly : ∀ {P : Router τ → Prop}, P (Router.create settings s).1 →
      ∀ r ∈ [(Router.create (τ := τ) settings s).1], P r :=
    fun h r hr => List.mem_singleton.mp hr ▸ h
  refine ⟨rfl, ⟨_, hs, honly howns⟩, honly rfl, honly (Nat.le_refl _), ?_, ?_, ?_⟩
  · rw [hstorages, List.length_append]
    exact Nat.le_add_right _ _
  · intro i r hr _ route hroute
    rw [honly (P := fun r => r.routes = []) rfl r (List.mem_of_getElem? hr)] at hroute
    cases hroute
  · intro id hid key hkey
    unfold Session.keys Session.storage at hkey
    rw [hstorages, List.getElem?_append_right hid] at hkey
    cases hat : id - s.storages.length <;> simp [hat] at hkey

theorem attended_startFamily (settings : RouterSettings)
    (steps : List (FamilyStep (RouterCall τ))) (s : Session) :
    let family := startFamily (Router.create settings) Router.perform steps s
    Attended s.storages.length settings.cacheEnabled family.1.1
      (settledMembers [true] steps family.1.2) family.2 :=
  leads_runFamily_attended _ _ steps _ [true] _ (attended_create settings s)

/-- At the end of every run of a family of routers: if the last new match types that a
member or its originals were given, if any, fitted every route, then every template of
the member that needs a pattern is bound under an enabled cache, no route of it fails on
any path, and no request changes a storage or notes a compiling, or, under an enabled
cache, compiles anything. In any case all that is bound in the storages of the family is
the template of a route that some member has. -/
theorem quiet_of_family (settings : RouterSettings)
    (steps : List (FamilyStep (RouterCall τ))) (s : Session) :
    let family := startFamily (Router.create settings) Router.perform steps s
    (∀ (member : Nat) (r : Router τ), family.1.1[member]? = some r →
      (settledMembers [true] steps family.1.2)[member]? = some true →
        (∀ route ∈ r.routes, needsPattern route.template = true → settings.cacheEnabled = true →
          route.template ∈ family.2.keys r.matcher.cache.storage) ∧
        (∀ route ∈ r.routes, ∀ path request, ∃ params,
          (r.matcher.matchRoute route.methods route.template path request family.2).1 =
            .ok params) ∧
        (∀ url request,
          family.2.Quiet settings.cacheEnabled (r.matchRequest url request family.2).2)) ∧
    ∀ id, s.storages.length ≤ id → ∀ key ∈ family.2.keys id,
      ∃ r ∈ family.1.1, ∃ route ∈ r.routes, route.template = key := by
  intro family
  have hattended : Attended s.storages.length settings.cacheEnabled family.1.1
      (settledMembers [true] steps family.1.2) family.2 := attended_startFamily settings steps s
  refine ⟨fun member r hr hsettled => ⟨fun route hroute hneeds henabled => ?_,
    fun route hroute path request => ?_, fun url request => ?_⟩, hattended.keys⟩
  · have hready := (hattended.settled member r hr hsettled route hroute).ready
    exact hready hneeds
      ((hattended.enabled_eq r (List.mem_of_getElem? hr)).trans henabled)
  · have hroute' := hattended.settled member r hr hsettled route hroute
    exact (r.matcher.quiet_matchRoute route.methods route.template path request _ hroute').1
  · rw [← hattended.enabled_eq r (List.mem_of_getElem? hr)]
    exact r.quiet_matchRequest url request _ (hattended.settled member r hr hsettled)

end Families

/-- Match types that fit no route unsettle the clone that they are given to, and not its
original: a request to the original finds its pattern bound. -/
theorem quiet_of_family_clone :
    let user : Route String := ⟨"GET", "/users/[i:id]", "user", none⟩
    let steps : List (FamilyStep (RouterCall String)) :=
      [.call 0 (.add user), .clone 0, .call 1 (.addTypes [("i", "(")])]
    let family := startFamily (Router.create ⟨true, ""⟩) Router.perform steps .start
    let r : Router String := ⟨[user], [], "", ⟨.builtIn, ⟨0, true⟩⟩⟩
    family.1.1[0]? = some r ∧ settledMembers [true] steps family.1.2 = [true, false] ∧
      "/users/[i:id]" ∈ family.2.keys 0 ∧
      family.2.Quiet true (r.matchRequest "/users/42" "GET" family.2).2 := by
  intro user steps family r
  have hr : family.1.1[0]? = some r := by decide +kernel
  have hsettled : settledMembers [true] steps family.1.2 = [true, false] := by decide +kernel
  obtain ⟨hbound, -, hquiet⟩ := (quiet_of_family ⟨true, ""⟩ steps .start).1 0 r hr
    (by rw [show settledMembers [true] steps _ = [true, false] from hsettled]; rfl)
  exact ⟨hr, hsettled, hbound user (List.mem_singleton_self _) (by decide) rfl,
    hquiet "/users/42" "GET"⟩

end UrlRouting
