import UrlRouting.Proofs.Cache.Faithful

/-!
# Operations under a faithful session

Each operation of a matcher or a router is its cache-free counterpart: it gives the
same answer, leaves the same table, and leaves every storage faithful. New match
types bring a storage of their own, so that here the owners grow by one.
-/

namespace UrlRouting

variable [Regex.SizeLimit]

/-- From every faithful session, an action gives an answer with a property and leaves
a session that is faithful once the storages it created have their owners. -/
def Grows {α : Type} (owners : Owners) (x : Action α) (post : Owners → α → Prop) : Prop :=
  ∀ s, Faithful owners s →
    ∃ more, post (owners ++ more) (x s).1 ∧ Faithful (owners ++ more) (x s).2

section Rules

variable {α β : Type} {owners : Owners}

theorem Keeps.grows {x : Action α} {post : α → Prop} {post' : Owners → α → Prop}
    (hx : Keeps owners x post) (h : ∀ a, post a → post' owners a) :
    Grows owners x post' := by
  intro s hs
  obtain ⟨hpost, hs'⟩ := hx s hs
  exact ⟨[], by simpa using h _ hpost, by simpa using hs'⟩

theorem Grows.bind {x : Action α} {f : α → Action β} {mid : Owners → α → Prop}
    {post : Owners → β → Prop} (hx : Grows owners x mid)
    (hf : ∀ (more : Owners) a, mid (owners ++ more) a → Grows (owners ++ more) (f a) post) :
    Grows owners (x >>= f) post := by
  intro s hs
  obtain ⟨more, hmid, hs'⟩ := hx s hs
  obtain ⟨later, hpost, hs''⟩ := hf more (x s).1 hmid (x s).2 hs'
  rw [List.append_assoc] at hpost hs''
  exact ⟨more ++ later, hpost, hs''⟩

theorem grows_pure {a : α} {post : Owners → α → Prop} (h : post owners a) :
    Grows owners (pure a : Action α) post := by
  have hkeeps : Keeps owners (pure a) (· = a) := keeps_pure rfl
  exact hkeeps.grows fun _ heq => heq ▸ h

end Rules

/-! ## Matchers -/

section Matchers

variable {owners : Owners}

theorem Matcher.grows_create (types : MatchTypes) (enabled : Bool) :
    Grows owners (Matcher.create types enabled)
      fun owners' m => m.Owns owners' ∧ m.types = types := by
  intro s hs
  obtain ⟨-, hfaithful⟩ := hs.create enabled types
  refine ⟨[some types], ⟨?_, rfl⟩, hfaithful⟩
  show (owners ++ [some types])[s.storages.length]? = some (some types)
  rw [← hs.length_eq]
  simp

theorem Matcher.grows_addTypes (m : Matcher) (types : List (String × String)) :
    Grows owners (m.addTypes types)
      fun owners' m' => m'.Owns owners' ∧ m'.types = m.types.extend types :=
  Matcher.grows_create (m.types.extend types) m.cache.enabled

/-- Clearing a storage leaves nothing in it that could be wrong. -/
theorem Cache.keeps_clear (c : Cache) : Keeps owners c.clear fun _ => True := by
  intro s hs
  have hempty : Faithful owners (s.withStorage c.storage []) := by
    apply hs.withStorage
    intro types howner key pattern hmem
    cases hmem
  exact ⟨trivial, hempty.length_eq, hempty.compiled⟩

end Matchers

/-! ## Routers -/

namespace Router

variable {τ : Type} {owners : Owners} {r : Router τ}

theorem grows_create (settings : RouterSettings) :
    Grows owners (Router.create (τ := τ) settings)
      fun owners' r => r.matcher.Owns owners' ∧ r.table = Table.create settings.base := by
  unfold Router.create
  refine (Matcher.grows_create MatchTypes.builtIn settings.cacheEnabled).bind
    fun more m hm => grows_pure ⟨hm.1, ?_⟩
  unfold Router.table Table.create
  rw [hm.2]

theorem keeps_add (hm : r.matcher.Owns owners) (route : Route τ) :
    Keeps owners (r.add route) fun answer =>
      answer.1.matcher = r.matcher ∧ (answer.1.table, answer.2) = r.table.add route := by
  have hindex : ∀ name, r.index? name = r.table.names.lookup name := fun _ => rfl
  unfold Router.add Table.add
  simp only [hindex]
  cases route.name.filter fun name => (r.table.names.lookup name).isSome with
  | some name => exact keeps_pure ⟨rfl, rfl⟩
  | none =>
    refine (Matcher.keeps_prepare hm route.template).bind fun outcome houtcome => ?_
    change outcome = prepared r.table.types route.template at houtcome
    rw [← houtcome]
    cases outcome with
    | error e => exact keeps_pure ⟨rfl, rfl⟩
    | ok _ => exact (keeps_note _).bind fun _ _ => keeps_pure ⟨rfl, rfl⟩

theorem keeps_addEach (routes : List (Route τ)) :
    ∀ {r : Router τ}, r.matcher.Owns owners → Keeps owners (r.addEach routes) fun answer =>
      answer.1.matcher = r.matcher ∧ (answer.1.table, answer.2) = r.table.addAll routes := by
  induction routes with
  | nil => exact fun _ => keeps_pure ⟨rfl, rfl⟩
  | cons route rest ih =>
    intro r hm
    unfold Router.addEach Table.addAll
    refine (keeps_add hm route).bind fun answer hanswer => ?_
    obtain ⟨r', outcome⟩ := answer
    obtain ⟨hmatcher, hadd⟩ := hanswer
    rw [← hadd]
    cases outcome with
    | error e => exact keeps_pure ⟨hmatcher, rfl⟩
    | ok _ =>
      have hm' : r'.matcher.Owns owners := hmatcher ▸ hm
      exact (ih hm').imp fun _ h => ⟨h.1.trans hmatcher, h.2⟩

theorem keeps_addAll (hm : r.matcher.Owns owners) (routes : List (Route τ)) :
    Keeps owners (r.addAll routes) fun answer =>
      answer.1.matcher = r.matcher ∧ (answer.1.table, answer.2) = r.table.addAll routes := by
  unfold Router.addAll
  refine (keeps_addEach routes hm).bind fun answer hanswer => ?_
  obtain ⟨r', outcome⟩ := answer
  cases outcome with
  | error e => exact keeps_pure hanswer
  | ok _ => exact (keeps_note _).bind fun _ _ => keeps_pure hanswer

theorem keeps_prepareEach {m : Matcher} (hm : m.Owns owners) (templates : List String) :
    Keeps owners (prepareEach m templates) (· = Table.preparedAll m.types templates) := by
  induction templates with
  | nil => exact keeps_pure rfl
  | cons template rest ih =>
    unfold prepareEach Table.preparedAll
    refine (Matcher.keeps_prepare hm template).bind fun outcome houtcome => ?_
    rw [← houtcome]
    cases outcome with
    | error e => exact keeps_pure rfl
    | ok _ => exact ih

/-- New match types: a new storage, and every route is compiled into it. -/
theorem grows_addTypes (r : Router τ) (types : List (String × String)) :
    Grows owners (r.addTypes types) fun owners' answer =>
      answer.1.matcher.Owns owners' ∧ (answer.1.table, answer.2) = r.table.addTypes types := by
  unfold Router.addTypes
  refine (Matcher.grows_addTypes r.matcher types).bind fun more m hm => ?_
  have hprepared : Grows (owners ++ more) (prepareEach m (r.routes.map (·.template)))
      fun _ outcome => outcome = Table.preparedAll m.types (r.routes.map (·.template)) :=
    (keeps_prepareEach hm.1 _).grows fun _ h => h
  refine hprepared.bind fun later outcome houtcome => ?_
  refine grows_pure ⟨hm.1.append later, ?_⟩
  rw [houtcome]
  unfold Router.table Table.addTypes
  simp only [hm.2]

theorem keeps_firstHit {m : Matcher} (hm : m.Owns owners) (path request : String)
    (routes : List (Route τ)) :
    Keeps owners (firstHit m path request routes)
      (· = Table.firstHit m.types path request routes) := by
  induction routes with
  | nil => exact keeps_pure rfl
  | cons route rest ih =>
    unfold firstHit Table.firstHit
    refine (Matcher.keeps_matchRoute hm route.methods route.template path request).bind
      fun answer hanswer => ?_
    rw [← hanswer]
    match answer with
    | .ok (some params) => exact keeps_pure rfl
    | .ok none => exact ih
    | .error e => exact (keeps_note _).bind fun _ _ => ih

/-- A request is answered as it is without a cache. -/
theorem keeps_matchRequest (hm : r.matcher.Owns owners) (url request : String) :
    Keeps owners (r.matchRequest url request) (· = r.table.matchRequest url request) := by
  have hpath : r.requestPath url = r.table.requestPath url := rfl
  unfold Router.matchRequest Table.matchRequest
  rw [← hpath]
  split
  · next hnone => exact (keeps_note _).bind fun _ _ => keeps_pure (by simp [hnone])
  · next path hsome =>
    refine (keeps_note _).bind fun _ _ => ?_
    refine (keeps_firstHit hm path request r.routes).bind fun answer hanswer => ?_
    change answer = Table.firstHit r.table.types path request r.table.routes at hanswer
    rw [hsome, Option.bind_some, ← hanswer]
    cases answer with
    | some hit => exact (keeps_note _).bind fun _ _ => keeps_pure rfl
    | none => exact (keeps_note _).bind fun _ _ => keeps_pure rfl

end Router

end UrlRouting
