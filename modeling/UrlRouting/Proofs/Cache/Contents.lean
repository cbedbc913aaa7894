import UrlRouting.Proofs.Cache.Calls
import UrlRouting.Proofs.Direct

/-!
# What operations leave in the storages

An operation binds a template in the storage of its own matcher and touches no other
storage. A template whose pattern is bound is not compiled again: the session stays as
it is. Nothing is bound when compiling fails.

Main statements: one for each operation, about its answer, the session before it and
the session it leaves.
-/

namespace UrlRouting

/-! ## Rules for actions -/

/-- From every session, an action gives an answer and leaves a session as described. -/
def Leads {α : Type} (x : Action α) (post : Session → α → Session → Prop) : Prop :=
  ∀ s, post s (x s).1 (x s).2

section Rules

variable {α β : Type}

theorem leads_pure {a : α} {post : Session → α → Session → Prop} (h : ∀ s, post s a s) :
    Leads (pure a : Action α) post :=
  h

theorem Leads.bind {x : Action α} {f : α → Action β} {mid : Session → α → Session → Prop}
    {post : Session → β → Session → Prop} (hx : Leads x mid)
    (hf : ∀ a, Leads (f a) fun s' b s'' => ∀ s, mid s a s' → post s b s'') :
    Leads (x >>= f) post :=
  fun s => hf (x s).1 (x s).2 s (hx s)

theorem Leads.imp {x : Action α} {post post' : Session → α → Session → Prop}
    (hx : Leads x post) (h : ∀ s a s', post s a s' → post' s a s') : Leads x post' :=
  fun s => h s _ _ (hx s)

theorem leads_note (event : Event) :
    Leads (note event) fun s _ s' => s' = { s with log := event :: s.log } :=
  fun _ => rfl

end Rules

/-! ## Keys -/

/-- The templates whose patterns are in a storage. -/
def Session.keys (s : Session) (id : Nat) : List String :=
  (s.storage id).map (·.1)

theorem Session.keys_congr {s s' : Session} (h : s'.storages = s.storages) (id : Nat) :
    s'.keys id = s.keys id := by
  unfold Session.keys Session.storage
  rw [h]

theorem Session.keys_set {s s' : Session} {id : Nat} {entries : Storage}
    (h : s'.storages = s.storages.set id entries) (other : Nat) :
    s'.keys other =
      if id = other ∧ other < s.storages.length then entries.map (·.1) else s.keys other := by
  unfold Session.keys Session.storage
  rw [h, List.getElem?_set]
  by_cases hid : id = other
  · by_cases hlt : other < s.storages.length
    · simp [hid, hlt]
    · simp [hid, hlt]
  · simp [hid]

theorem mem_map_of_lookup {storage : Storage} {key : String} {pattern : SharedPattern}
    (h : storage.lookup key = some pattern) : key ∈ storage.map (·.1) := by
  obtain ⟨before, after, heq, -⟩ := List.lookup_eq_some_iff.mp h
  rw [heq]
  simp

theorem exists_lookup_of_mem {storage : Storage} {key : String}
    (h : key ∈ storage.map (·.1)) :
    ∃ pattern, storage.lookup key = some pattern := by
  cases hlook : storage.lookup key with
  | some pattern => exact ⟨pattern, rfl⟩
  | none =>
    obtain ⟨⟨_, pattern⟩, hmem, rfl⟩ := List.mem_map.mp h
    have hne := List.lookup_eq_none_iff.mp hlook _ hmem
    simp at hne

/-- Between two sessions, some templates may have been bound in one storage. -/
structure Session.Adds (id : Nat) (templates : List String) (s s' : Session) : Prop where
  length_le : s.storages.length ≤ s'.storages.length
  kept : ∀ other key, key ∈ s.keys other → key ∈ s'.keys other
  added : ∀ other key, key ∈ s'.keys other →
    key ∈ s.keys other ∨ (other = id ∧ key ∈ templates)

namespace Session.Adds

variable {id : Nat} {templates more : List String} {s s' s'' : Session}

theorem of_storages_eq (h : s'.storages = s.storages) : s.Adds id templates s' where
  length_le := Nat.le_of_eq (congrArg List.length h.symm)
  kept _ _ hmem := (keys_congr h _).symm ▸ hmem
  added _ _ hmem := .inl (keys_congr h _ ▸ hmem)

theorem of_set {key : String} {pattern : SharedPattern}
    (h : s'.storages = s.storages.set id ((key, pattern) :: s.storage id)) :
    s.Adds id [key] s' where
  length_le := by simp [h]
  kept other held hmem := by
    rw [keys_set h]
    split
    · next hid =>
      rw [← hid.1] at hmem
      exact List.mem_cons_of_mem _ hmem
    · exact hmem
  added other held hmem := by
    rw [keys_set h] at hmem
    split at hmem
    · next hid =>
      rcases List.mem_cons.mp hmem with rfl | hmem
      · exact .inr ⟨hid.1.symm, List.mem_singleton_self _⟩
      · exact .inl (hid.1 ▸ hmem)
    · exact .inl hmem

theorem trans (h : s.Adds id templates s') (h' : s'.Adds id more s'') :
    s.Adds id (templates ++ more) s'' where
  length_le := Nat.le_trans h.length_le h'.length_le
  kept other key hmem := h'.kept other key (h.kept other key hmem)
  added other key hmem := by
    rcases h'.added other key hmem with hmem | ⟨hid, hmem⟩
    · rcases h.added other key hmem with hmem | ⟨hid, hmem⟩
      · exact .inl hmem
      · exact .inr ⟨hid, List.mem_append_left _ hmem⟩
    · exact .inr ⟨hid, List.mem_append_right _ hmem⟩

/-- Only the storages count. -/
theorem congr {t t' : Session} (h : s.Adds id templates s') (hs : t.storages = s.storages)
    (hs' : t'.storages = s'.storages) : t.Adds id templates t' where
  length_le := by rw [hs, hs']; exact h.length_le
  kept other key hmem := by
    rw [keys_congr hs']
    exact h.kept other key (keys_congr hs other ▸ hmem)
  added other key hmem := by
    rw [keys_congr hs]
    exact h.added other key (keys_congr hs' other ▸ hmem)

theorem mono (h : s.Adds id templates s') (hsub : ∀ key ∈ templates, key ∈ more) :
    s.Adds id more s' where
  length_le := h.length_le
  kept := h.kept
  added other key hmem := (h.added other key hmem).imp_right fun ⟨hid, hmem⟩ => ⟨hid, hsub key hmem⟩

end Session.Adds

/-! ## Matchers -/

/-- Matching a template compiles nothing: it needs no pattern, or its pattern is bound,
or there is no cache to bind it in. -/
def Matcher.Ready (m : Matcher) (template : String) (s : Session) : Prop :=
  needsPattern template = true → m.cache.enabled = true → template ∈ s.keys m.cache.storage

theorem Matcher.Ready.adds {m : Matcher} {template : String} {s s' : Session}
    (h : m.Ready template s) {id : Nat} {templates : List String}
    (hadds : s.Adds id templates s') :
    m.Ready template s' :=
  fun hneeds henabled => hadds.kept _ _ (h hneeds henabled)

/-- Compiling under an enabled cache: the template is bound and nothing happens,
or it is not, and then compiling fails and nothing is bound, or the pattern is
bound now. -/
theorem Matcher.leads_compile [Regex.SizeLimit] {m : Matcher}
    (henabled : m.cache.enabled = true) (template : String) :
    Leads (m.compile template) fun s answer s' =>
      (template ∈ s.keys m.cache.storage ∧ (∃ pattern, answer = .ok pattern) ∧ s' = s) ∨
      (template ∉ s.keys m.cache.storage ∧ (((∃ e, answer = .error e) ∧ s'.storages = s.storages) ∨
        ∃ pattern, answer = .ok pattern ∧ s'.storages =
          s.storages.set m.cache.storage ((template, pattern) :: s.storage m.cache.storage))) := by
  intro s
  have hlookup := Cache.bound?_of_enabled henabled template s
  rw [m.compile_eq]
  cases hbound : m.cache.bound? template s with
  | some pattern => exact .inl ⟨mem_map_of_lookup (hlookup.symm.trans hbound), ⟨pattern, rfl⟩, rfl⟩
  | none =>
    have hfree : template ∉ s.keys m.cache.storage := by
      intro hmem
      obtain ⟨pattern, hsome⟩ := exists_lookup_of_mem hmem
      rw [← hlookup, hbound] at hsome
      cases hsome
    refine .inr ⟨hfree, ?_⟩
    cases compileTemplate m.types template with
    | error e => exact .inl ⟨⟨e, rfl⟩, rfl⟩
    | ok compiled =>
      refine .inr ⟨_, rfl, ?_⟩
      dsimp only
      unfold Cache.retain
      rw [if_pos henabled]

/-- Without a cache nothing is bound. -/
theorem Matcher.leads_compile_disabled [Regex.SizeLimit] {m : Matcher}
    (hdisabled : m.cache.enabled = false) (template : String) :
    Leads (m.compile template) fun s _ s' => s'.storages = s.storages := by
  intro s
  rw [m.compile_eq]
  cases m.cache.bound? template s with
  | some pattern => rfl
  | none =>
    cases compileTemplate m.types template with
    | error e => rfl
    | ok compiled =>
      dsimp only
      unfold Cache.retain
      rw [hdisabled]
      rfl

/-- Compiling binds the template, if anything. -/
theorem Matcher.adds_compile [Regex.SizeLimit] (m : Matcher) (template : String) :
    Leads (m.compile template) fun s _ s' => s.Adds m.cache.storage [template] s' := by
  cases henabled : m.cache.enabled with
  | false => exact (leads_compile_disabled henabled template).imp fun _ _ _ h => .of_storages_eq h
  | true =>
    refine (leads_compile henabled template).imp fun s answer s' h => ?_
    rcases h with ⟨-, -, rfl⟩ | ⟨-, ⟨-, hs⟩ | ⟨_, -, hs⟩⟩
    · exact .of_storages_eq rfl
    · exact .of_storages_eq hs
    · exact .of_set hs

/-- A template is prepared, and matching it will compile nothing; or it cannot be
compiled, and nothing is bound. -/
theorem Matcher.leads_prepare [Regex.SizeLimit] (m : Matcher) (template : String) :
    Leads (m.prepare template) fun s outcome s' =>
      ((∃ e, outcome = .error e) ∧ s'.storages = s.storages) ∨
      (outcome = .ok () ∧ s.Adds m.cache.storage [template] s' ∧
        (m.cache.storage < s.storages.length → m.Ready template s')) := by
  unfold Matcher.prepare
  split
  · next hneeds =>
    cases henabled : m.cache.enabled with
    | false =>
      refine (leads_compile_disabled henabled template).bind fun answer => ?_
      have hready : ∀ s, m.Ready template s := fun _ _ h => by rw [henabled] at h; cases h
      cases answer with
      | error e => exact leads_pure fun _ _ h => .inl ⟨⟨e, rfl⟩, h⟩
      | ok pattern =>
        exact leads_pure fun s' _ h => .inr ⟨rfl, .of_storages_eq h, fun _ => hready s'⟩
    | true =>
      refine (leads_compile henabled template).bind fun answer => ?_
      cases answer with
      | error e =>
        refine leads_pure fun s' s h => .inl ⟨⟨e, rfl⟩, ?_⟩
        rcases h with ⟨-, ⟨_, hok⟩, -⟩ | ⟨-, ⟨-, hs⟩ | ⟨_, hok, -⟩⟩
        · cases hok
        · exact hs
        · cases hok
      | ok pattern =>
        refine leads_pure fun s' s h => .inr ⟨rfl, ?_⟩
        rcases h with ⟨hmem, -, rfl⟩ | ⟨-, ⟨⟨_, herror⟩, -⟩ | ⟨bound, -, hs⟩⟩
        · exact ⟨.of_storages_eq rfl, fun _ _ _ => hmem⟩
        · cases herror
        · refine ⟨.of_set hs, fun hlt _ _ => ?_⟩
          rw [Session.keys_set hs, if_pos ⟨rfl, hlt⟩]
          exact List.mem_cons_self ..
  · next hneeds =>
    exact leads_pure fun s => .inr ⟨rfl, .of_storages_eq rfl, fun _ h => absurd h hneeds⟩

theorem Matcher.adds_runPattern [Regex.SizeLimit] (m : Matcher) (template path : String) :
    Leads (m.runPattern template path) fun s _ s' => s.Adds m.cache.storage [template] s' := by
  unfold Matcher.runPattern
  refine (m.adds_compile template).bind fun answer => ?_
  cases answer <;> exact leads_pure fun _ _ h => h

/-- Matching a route binds its template, if anything. -/
theorem Matcher.adds_matchRoute [Regex.SizeLimit] (m : Matcher)
    (methods template path request : String) :
    Leads (m.matchRoute methods template path request) fun s _ s' =>
      s.Adds m.cache.storage [template] s' := by
  have hpure : ∀ answer : Except RouteError (Option Params),
      Leads (pure answer : Action _) fun s _ s' => s.Adds m.cache.storage [template] s' :=
    fun _ => leads_pure fun _ => .of_storages_eq rfl
  unfold Matcher.matchRoute
  split
  · exact hpure _
  split
  · exact hpure _
  split
  · exact m.adds_runPattern template path
  split
  · exact hpure _
  split
  · exact (leads_note _).bind fun _ => leads_pure fun _ _ h => .of_storages_eq (h ▸ rfl)
  · split
    · exact m.adds_runPattern template path
    · exact hpure _

/-! ## Routers -/

namespace Router

variable {τ : Type}

/-- Appends routes in order. -/
def pushAll (r : Router τ) (routes : List (Route τ)) : Router τ :=
  routes.foldl push r

@[simp] theorem matcher_push (r : Router τ) (route : Route τ) :
    (r.push route).matcher = r.matcher := rfl

@[simp] theorem routes_push (r : Router τ) (route : Route τ) :
    (r.push route).routes = r.routes ++ [route] := rfl

@[simp] theorem matcher_pushAll (r : Router τ) (routes : List (Route τ)) :
    (r.pushAll routes).matcher = r.matcher := by
  induction routes generalizing r with
  | nil => rfl
  | cons route rest ih => exact ih (r.push route)

@[simp] theorem routes_pushAll (r : Router τ) (routes : List (Route τ)) :
    (r.pushAll routes).routes = r.routes ++ routes := by
  induction routes generalizing r with
  | nil => exact (List.append_nil _).symm
  | cons route rest ih =>
    show ((r.push route).pushAll rest).routes = _
    rw [ih, routes_push, List.append_assoc, List.singleton_append]

variable [Regex.SizeLimit]

/-- A route is registered and its pattern bound, or nothing changes. -/
theorem leads_add (r : Router τ) (route : Route τ) :
    Leads (r.add route) fun s answer s' =>
      ((∃ e, answer = (r, .error e)) ∧ s'.storages = s.storages) ∨
      (answer = (r.push route, .ok ()) ∧ s.Adds r.matcher.cache.storage [route.template] s' ∧
        (r.matcher.cache.storage < s.storages.length → r.matcher.Ready route.template s')) := by
  unfold Router.add
  split
  · next name => exact leads_pure fun _ => .inl ⟨⟨_, rfl⟩, rfl⟩
  · refine (Matcher.leads_prepare r.matcher route.template).bind fun outcome => ?_
    cases outcome with
    | error e =>
      refine leads_pure fun s' s h => .inl ⟨⟨e, rfl⟩, ?_⟩
      rcases h with ⟨-, hs⟩ | ⟨hok, -⟩
      · exact hs
      · cases hok
    | ok _ =>
      refine (leads_note _).bind fun _ => leads_pure fun s'' s' hs'' s h => .inr ⟨rfl, ?_⟩
      rcases h with ⟨⟨_, herror⟩, -⟩ | ⟨-, hadds, hready⟩
      · cases herror
      · subst hs''
        exact ⟨hadds.congr rfl rfl, hready⟩

/-- Of the routes offered to a router, the first ones are registered, all of
them if none fails, and their patterns are bound. -/
structure Registers (r : Router τ) (offered more : List (Route τ)) (s : Session)
    (answer : Router τ × Except RouteError Unit) (s' : Session) : Prop where
  router_eq : answer.1 = r.pushAll more
  begins : more <+: offered
  all : answer.2 = .ok () → more = offered
  adds : s.Adds r.matcher.cache.storage (more.map (·.template)) s'
  ready : r.matcher.cache.storage < s.storages.length →
    ∀ route ∈ more, r.matcher.Ready route.template s'

theorem leads_addEach (offered : List (Route τ)) :
    ∀ r : Router τ, Leads (r.addEach offered) fun s answer s' =>
      ∃ more, r.Registers offered more s answer s' := by
  induction offered with
  | nil =>
    exact fun r => leads_pure fun _ =>
      ⟨[], rfl, List.prefix_rfl, fun _ => rfl, .of_storages_eq rfl, fun _ _ h => nomatch h⟩
  | cons route rest ih =>
    intro r
    unfold Router.addEach
    refine (leads_add r route).bind fun answer => ?_
    obtain ⟨r', outcome⟩ := answer
    cases outcome with
    | error e =>
      refine leads_pure fun s' s h => ⟨[], ?_⟩
      -- the routes behind one that fails are not looked at
      rcases h with ⟨⟨_, heq⟩, hs⟩ | ⟨heq, -⟩
      · exact ⟨congrArg Prod.fst heq, List.nil_prefix, (fun hok => nomatch hok),
          .of_storages_eq hs, fun _ _ h => nomatch h⟩
      · cases heq
    | ok _ =>
      refine (ih r').imp fun s' answer s'' hrest s h => ?_
      obtain ⟨more, hmore⟩ := hrest
      rcases h with ⟨⟨_, heq⟩, -⟩ | ⟨heq, hfirst, hready⟩
      · cases heq
      · obtain rfl : r' = r.push route := congrArg Prod.fst heq
        refine ⟨route :: more, hmore.router_eq, List.cons_prefix_cons.mpr ⟨rfl, hmore.begins⟩,
          fun hok => by rw [hmore.all hok], hfirst.trans hmore.adds, fun hlt other hmem => ?_⟩
        rcases List.mem_cons.mp hmem with rfl | hmem
        · exact (hready hlt).adds hmore.adds
        · exact hmore.ready (Nat.lt_of_lt_of_le hlt hfirst.length_le) other hmem

theorem leads_addAll (r : Router τ) (offered : List (Route τ)) :
    Leads (r.addAll offered) fun s answer s' => ∃ more, r.Registers offered more s answer s' := by
  unfold Router.addAll
  refine (leads_addEach offered r).bind fun answer => ?_
  obtain ⟨r', outcome⟩ := answer
  cases outcome with
  | error e => exact leads_pure fun _ _ h => h
  | ok _ =>
    refine (leads_note _).bind fun _ => leads_pure fun s'' s' hs'' s h => ?_
    obtain ⟨more, hmore⟩ := h
    subst hs''
    exact ⟨more, hmore.router_eq, hmore.begins, hmore.all,
      hmore.adds.congr rfl rfl, hmore.ready⟩

/-- Templates are prepared in order; after a success all of them are. -/
theorem leads_prepareEach (m : Matcher) (templates : List String) :
    Leads (prepareEach m templates) fun s outcome s' =>
      s.Adds m.cache.storage templates s' ∧
        (outcome = .ok () → m.cache.storage < s.storages.length →
          ∀ template ∈ templates, m.Ready template s') := by
  induction templates with
  | nil => exact leads_pure fun _ => ⟨.of_storages_eq rfl, fun _ _ _ h => nomatch h⟩
  | cons template rest ih =>
    unfold prepareEach
    refine (Matcher.leads_prepare m template).bind fun outcome => ?_
    cases outcome with
    | error e =>
      refine leads_pure fun s' s h => ⟨?_, fun hok => nomatch hok⟩
      rcases h with ⟨-, hs⟩ | ⟨heq, -⟩
      · exact .of_storages_eq hs
      · cases heq
    | ok _ =>
      refine ih.imp fun s' outcome s'' hrest s h => ?_
      rcases h with ⟨⟨_, heq⟩, -⟩ | ⟨-, hfirst, hready⟩
      · cases heq
      · refine ⟨hfirst.trans hrest.1, fun hok hlt other hmem => ?_⟩
        rcases List.mem_cons.mp hmem with rfl | hmem
        · exact (hready hlt).adds hrest.1
        · exact hrest.2 hok (Nat.lt_of_lt_of_le hlt hfirst.length_le) other hmem

/-- New match types: a storage of their own, into which the templates of the routes are
bound, all of them if none fails. -/
theorem leads_addTypes (r : Router τ) (types : List (String × String)) :
    Leads (r.addTypes types) fun s answer s' =>
      answer.1 = { r with
        matcher := ⟨r.matcher.types.extend types, s.storages.length, r.matcher.cache.enabled⟩ } ∧
      s.storages.length < s'.storages.length ∧
      s.Adds s.storages.length (r.routes.map (·.template)) s' ∧
      (answer.2 = .ok () → ∀ route ∈ r.routes, answer.1.matcher.Ready route.template s') := by
  unfold Router.addTypes
  have hcreate : Leads (r.matcher.addTypes types) fun s m s' =>
      m = ⟨r.matcher.types.extend types, s.storages.length, r.matcher.cache.enabled⟩ ∧
        s'.storages = s.storages ++ [[]] := fun _ => ⟨rfl, rfl⟩
  refine hcreate.bind fun m => (leads_prepareEach m _).bind fun outcome => ?_
  refine leads_pure fun s'' s' hprepared s hm => ?_
  obtain ⟨rfl, hstorages⟩ := hm
  obtain ⟨hadds, hready⟩ := hprepared
  have hlength : s'.storages.length = s.storages.length + 1 := by simp [hstorages]
  have hlt : s.storages.length < s'.storages.length := hlength ▸ Nat.lt_succ_self _
  -- the storage that is new has no keys yet
  have hkeys : ∀ id, s'.keys id = s.keys id := by
    intro id
    unfold Session.keys Session.storage
    rw [hstorages, List.getElem?_append]
    split
    · rfl
    · next hge =>
      rw [List.getElem?_eq_none (Nat.le_of_not_lt hge)]
      cases id - s.storages.length <;> rfl
  refine ⟨rfl, Nat.lt_of_lt_of_le hlt hadds.length_le, ⟨?_, ?_, ?_⟩, fun hok route hmem => ?_⟩
  · exact Nat.le_trans (Nat.le_of_lt hlt) hadds.length_le
  · exact fun other key hmem => hadds.kept other key (hkeys other ▸ hmem)
  · exact fun other key hmem => hkeys other ▸ hadds.added other key hmem
  · exact hready hok hlt route.template (List.mem_map_of_mem hmem)

theorem adds_firstHit (m : Matcher) (path request : String) (routes : List (Route τ)) :
    Leads (firstHit m path request routes) fun s _ s' =>
      s.Adds m.cache.storage (routes.map (·.template)) s' := by
  induction routes with
  | nil => exact leads_pure fun _ => .of_storages_eq rfl
  | cons route rest ih =>
    unfold firstHit
    refine (m.adds_matchRoute route.methods route.template path request).bind fun answer => ?_
    match answer with
    | .ok (some params) =>
      exact leads_pure fun s' s h =>
        h.mono fun key hmem => List.mem_cons.mpr (.inl (List.mem_singleton.mp hmem))
    | .ok none => exact ih.imp fun s' _ s'' hrest s h => h.trans hrest
    | .error e =>
      refine (leads_note _).bind fun _ => ih.imp fun s'' _ s''' hrest s' hs'' s h => ?_
      subst hs''
      exact h.trans (hrest.congr rfl rfl)

/-- A request binds templates of the routes, if any. -/
theorem adds_matchRequest (r : Router τ) (url request : String) :
    Leads (r.matchRequest url request) fun s _ s' =>
      s.Adds r.matcher.cache.storage (r.routes.map (·.template)) s' := by
  unfold Router.matchRequest
  split
  · exact (leads_note _).bind fun _ => leads_pure fun _ _ h => .of_storages_eq (h ▸ rfl)
  · next path _ =>
    refine (leads_note _).bind fun _ => (adds_firstHit r.matcher path request r.routes).bind
      fun hit => ?_
    cases hit <;>
    · refine (leads_note _).bind fun _ => leads_pure fun s₃ s₂ h₃ s₁ hadds s h₁ => ?_
      subst h₁ h₃
      exact hadds.congr rfl rfl

end Router

end UrlRouting
