import UrlRouting.Proofs.Dictionaries
import UrlRouting.Proofs.NameIndex
import UrlRouting.RouteFile.Load
import UrlRouting.Regex.ProgramSize

/-!
# Routers that are built from route files

A router is built from a route file if no name comes twice in it and every
template that needs a pattern compiles under the built-in match types with those
of the file over them. Then it has the routes of the file in their order, these
match types, and the base path of the file, or else that of the settings.
Otherwise the error is that of the first route that repeats a name or does not
compile, and a repeated name is reported first. The cache has no part in it.

Main statement: `ofRouteFile_built`.
-/

namespace UrlRouting

/-! ## Match types of a file over those that are built in -/

/-- Match types put over others hide those of the same name. -/
theorem Dictionary.get?_extend_entries (d e : Dictionary) (name : String) :
    (d.extend e.entries).get? name = (e.get? name).or (d.get? name) := by
  rw [get?_extend, lookupLast_eq_lookup e.distinct_keys]
  rfl

/-! ## Which routes a table takes -/

section Tables

variable {τ : Type}

/-- The names of routes, in order. -/
def routeNames (routes : List (Route τ)) : List String :=
  routes.filterMap Route.name

/-- A template that is raw or has a bracket is compiled, and every other one is
taken as it is. -/
def Compiles [Regex.SizeLimit] (types : MatchTypes) (template : String) : Prop :=
  isRaw template = true ∨ hasBracket template = true →
    ∃ c, compileTemplate types template = .ok c

/-- Routes that a router with these match types and no other routes takes all
together. -/
structure Registrable [Regex.SizeLimit] (types : MatchTypes)
    (routes : List (Route τ)) : Prop where
  distinct : (routeNames routes).Nodup
  compiles : ∀ route ∈ routes, Compiles types route.template

/-- Why a route is not taken behind others: another one has its name, or none
has but its template does not compile. -/
inductive Rejected [Regex.SizeLimit] (types : MatchTypes) (before : List (Route τ))
    (route : Route τ) : RouteError → Prop
  | taken {name : String} (hname : route.name = some name) (htaken : name ∈ routeNames before) :
    Rejected types before route (.duplicateName name)
  | unfit {e : RouteError} (hfree : ∀ name, route.name = some name → name ∉ routeNames before)
    (hneeds : isRaw route.template = true ∨ hasBracket route.template = true)
    (hcompile : compileTemplate types route.template = .error e) :
    Rejected types before route e

theorem needsPattern_iff {template : String} :
    needsPattern template = true ↔ isRaw template = true ∨ hasBracket template = true := by
  rw [needsPattern_eq, Bool.or_eq_true]

theorem compiles_iff [Regex.SizeLimit] {types : MatchTypes} {template : String} :
    Compiles types template ↔ prepared types template = .ok () := by
  unfold Compiles
  rw [prepared_eq_ok_iff, needsPattern_iff]

namespace Table

variable {t : Table τ} {route : Route τ} {rest routes : List (Route τ)} {e : RouteError}

/-- The index knows the names of the routes and no other. -/
theorem Indexed.lookup_eq_none_iff (h : t.Indexed) (name : String) :
    t.names.lookup name = none ↔ name ∉ routeNames t.routes := by
  unfold routeNames
  rw [Option.eq_none_iff_forall_ne_some, List.mem_filterMap]
  constructor
  · rintro hnone ⟨other, hmem, hname⟩
    obtain ⟨i, hi⟩ := List.mem_iff_getElem?.mp hmem
    exact hnone i ((h name i).mpr ⟨other, hi, hname⟩)
  · intro hnot i hi
    obtain ⟨other, hat, hname⟩ := (h name i).mp hi
    exact hnot ⟨other, List.mem_of_getElem? hat, hname⟩

theorem Indexed.free_iff (h : t.Indexed) :
    t.Free route ↔ ∀ name, route.name = some name → name ∉ routeNames t.routes := by
  unfold Free
  simp only [h.lookup_eq_none_iff]

theorem Indexed.nodup (h : t.Indexed) : (routeNames t.routes).Nodup := by
  unfold routeNames List.Nodup
  rw [List.pairwise_filterMap, List.pairwise_iff_getElem]
  intro i j hi hj hlt a ha b hb heq
  subst heq
  -- one name leads to one place
  have hi' := (h a i).mpr ⟨_, List.getElem?_eq_getElem hi, ha⟩
  have hj' := (h a j).mpr ⟨_, List.getElem?_eq_getElem hj, hb⟩
  have hij := Option.some.inj (hi'.symm.trans hj')
  omega

variable [Regex.SizeLimit]

theorem add_eq_error_iff (h : t.Indexed) :
    (t.add route).2 = .error e ↔ Rejected t.types t.routes route e := by
  have hadded := t.added_add route
  generalize t.add route = answer at hadded
  constructor
  · intro herror
    cases hadded with
    | @taken name hname htaken =>
      obtain rfl := Except.error.inj herror
      refine .taken hname ?_
      by_cases hmem : name ∈ routeNames t.routes
      · exact hmem
      · refine absurd (h.free_iff.mpr ?_) htaken
        intro other hother
        rwa [← Option.some.inj (hname.symm.trans hother)]
    | refused hfree hrefused =>
      obtain rfl := Except.error.inj herror
      obtain ⟨hneeds, hcompile⟩ := prepared_eq_error_iff.mp hrefused
      exact .unfit (h.free_iff.mp hfree) (needsPattern_iff.mp hneeds) hcompile
    | registered => cases herror
  · intro hrejected
    cases hadded with
    | @taken name hname htaken =>
      cases hrejected with
      | taken hname' => rw [Option.some.inj (hname.symm.trans hname')]
      | unfit hfree => exact absurd (h.free_iff.mpr hfree) htaken
    | refused hfree hrefused =>
      cases hrejected with
      | taken hname htaken => exact absurd htaken (h.free_iff.mp hfree _ hname)
      | unfit _ hneeds hcompile =>
        exact hrefused.symm.trans
          (prepared_eq_error_iff.mpr ⟨needsPattern_iff.mpr hneeds, hcompile⟩)
    | registered hfree hprepared =>
      cases hrejected with
      | taken hname htaken => exact absurd htaken (h.free_iff.mp hfree _ hname)
      | unfit _ hneeds hcompile =>
        rw [prepared_eq_error_iff.mpr ⟨needsPattern_iff.mpr hneeds, hcompile⟩] at hprepared
        cases hprepared

/-! ## Several routes -/

theorem addAll_cons_of_ok (h : (t.add route).2 = .ok ()) :
    t.addAll (route :: rest) = (t.push route).addAll rest := by
  have hpush : (t.add route).1 = t.push route := add_of_ok h
  rw [addAll]
  generalize t.add route = answer at h hpush
  obtain ⟨t', outcome⟩ := answer
  cases outcome with
  | error e => cases h
  | ok _ => exact congrArg (·.addAll rest) hpush

theorem addAll_cons_of_error (h : (t.add route).2 = .error e) :
    (t.addAll (route :: rest)).2 = .error e := by
  rw [addAll]
  generalize t.add route = answer at h
  obtain ⟨t', outcome⟩ := answer
  cases outcome with
  | error e' => exact h
  | ok _ => cases h

/-- Routes are taken together exactly if no name comes twice, among them and
those there were, and all templates compile. -/
theorem addAll_eq_ok_iff (h : t.Indexed) :
    (t.addAll routes).2 = .ok () ↔ (routeNames (t.routes ++ routes)).Nodup ∧
      ∀ route ∈ routes, Compiles t.types route.template := by
  induction routes generalizing t with
  | nil =>
    rw [List.append_nil]
    exact ⟨fun _ => ⟨h.nodup, nofun⟩, fun _ => rfl⟩
  | cons route rest ih =>
    have happend : t.routes ++ route :: rest = (t.push route).routes ++ rest :=
      List.append_cons t.routes route rest
    rw [List.forall_mem_cons]
    have hadded := t.added_add route
    cases houtcome : (t.add route).2 with
    | ok _ =>
      have hprepared : t.Free route ∧ prepared t.types route.template = .ok () := by
        generalize t.add route = answer at hadded houtcome
        cases hadded with
        | taken => cases houtcome
        | refused => cases houtcome
        | registered hfree hprepared => exact ⟨hfree, hprepared⟩
      rw [addAll_cons_of_ok houtcome, ih (h.push hprepared.1), happend]
      simp only [compiles_iff.mpr hprepared.2, true_and]
      rfl
    | error e =>
      rw [addAll_cons_of_error houtcome]
      refine ⟨nofun, ?_⟩
      rintro ⟨hdistinct, hcompiles, -⟩
      cases (add_eq_error_iff h).mp houtcome with
      | @taken name hname htaken =>
        unfold routeNames at hdistinct htaken
        rw [List.filterMap_append, List.filterMap_cons, hname, List.nodup_append] at hdistinct
        exact absurd rfl (hdistinct.2.2 name htaken name (List.mem_cons_self ..))
      | unfit _ hneeds hcompile =>
        obtain ⟨c, hc⟩ := hcompiles hneeds
        rw [hc] at hcompile
        cases hcompile

/-- The outcome for several routes is that of the first that is not taken. -/
theorem addAll_eq_error_iff :
    (t.addAll routes).2 = .error e ↔
      ∃ before route after, routes = before ++ route :: after ∧
        (t.addAll before).2 = .ok () ∧ ((t.addAll before).1.add route).2 = .error e := by
  constructor
  · intro herror
    induction routes generalizing t with
    | nil => cases herror
    | cons first rest ih =>
      cases hfirst : (t.add first).2 with
      | error e' =>
        rw [addAll_cons_of_error hfirst] at herror
        exact ⟨[], first, rest, rfl, rfl, hfirst.trans herror⟩
      | ok _ =>
        rw [addAll_cons_of_ok hfirst] at herror
        obtain ⟨before, route, after, rfl, hbefore, hroute⟩ := ih herror
        refine ⟨first :: before, route, after, rfl, ?_⟩
        rw [addAll_cons_of_ok hfirst]
        exact ⟨hbefore, hroute⟩
  · rintro ⟨before, route, after, rfl, hbefore, hroute⟩
    induction before generalizing t with
    | nil => exact addAll_cons_of_error hroute
    | cons first before ih =>
      cases hfirst : (t.add first).2 with
      | error e' =>
        rw [addAll_cons_of_error hfirst] at hbefore
        cases hbefore
      | ok _ =>
        rw [addAll_cons_of_ok hfirst] at hbefore hroute
        rw [List.cons_append, addAll_cons_of_ok hfirst]
        exact ih hbefore hroute

/-- A table without routes: only its match types and what is offered decide. -/
theorem addAll_of_empty (hroutes : t.routes = []) (hnames : t.names = []) :
    ((t.addAll routes).2 = .ok () ↔ Registrable t.types routes) ∧
      ((t.addAll routes).2 = .error e ↔ ∃ before route after, routes = before ++ route :: after ∧
        Registrable t.types before ∧ Rejected t.types before route e) := by
  have hindexed : t.Indexed := by
    intro name i
    rw [hroutes, hnames]
    exact indexed_create "" name i
  have hok : ∀ routes : List (Route τ),
      (t.addAll routes).2 = .ok () ↔ Registrable t.types routes := by
    intro routes
    rw [addAll_eq_ok_iff hindexed, hroutes, List.nil_append]
    exact ⟨fun h => ⟨h.1, h.2⟩, fun h => ⟨h.distinct, h.compiles⟩⟩
  have hrejected : ∀ (before : List (Route τ)) (route : Route τ),
      (t.addAll before).2 = .ok () →
        (((t.addAll before).1.add route).2 = .error e ↔ Rejected t.types before route e) := by
    intro before route hbefore
    have hindexed' : (t.addAll before).1.Indexed :=
      addAll_induction (fun _ route h => h.add route) before hindexed
    rw [add_eq_error_iff hindexed', addAll_of_ok before hbefore, types_pushAll, routes_pushAll,
      hroutes, List.nil_append]
  refine ⟨hok routes, ?_⟩
  rw [addAll_eq_error_iff]
  constructor
  · rintro ⟨before, route, after, hsplit, hbefore, hroute⟩
    exact ⟨before, route, after, hsplit, (hok before).mp hbefore,
      (hrejected before route hbefore).mp hroute⟩
  · rintro ⟨before, route, after, hsplit, hbefore, hroute⟩
    have hbefore' := (hok before).mpr hbefore
    exact ⟨before, route, after, hsplit, hbefore', (hrejected before route hbefore').mpr hroute⟩

end Table

end Tables

/-! ## The router of a route file -/

/-- The match types of a router built from a route file. -/
def RouteFile.allTypes (file : RouteFile) : MatchTypes :=
  MatchTypes.builtIn.extend file.types.entries

/-- A table before the routes of a route file are registered. -/
def RouteFile.emptyTable (base : String) (file : RouteFile) : Table String :=
  { Table.create (file.base.getD base) with types := file.allTypes }

/-- The table of a route file, or why it has none. -/
def RouteFile.table [Regex.SizeLimit] (base : String) (file : RouteFile) :
    Except RouteError (Table String) :=
  match (file.emptyTable base).addAll file.routes with
  | (_, .error e) => .error e
  | (t, .ok ()) => .ok t

/-- Building a router from a route file is building a table from it, and the
storage of the router belongs to the match types of the table. -/
theorem Router.grows_ofRouteFile [Regex.SizeLimit] (owners : Owners)
    (settings : RouterSettings) (file : RouteFile) :
    Grows owners (Router.ofRouteFile settings file) fun owners' answer =>
      answer.map Router.table = file.table settings.base ∧
        ∀ r, answer = .ok r → r.matcher.Owns owners' := by
  unfold Router.ofRouteFile
  refine (Router.grows_create settings).bind fun more created hcreated => ?_
  obtain ⟨howns, hcreated⟩ := hcreated
  refine (Router.grows_addTypes (created.withBase (file.base.getD settings.base))
    file.types.entries).bind fun later typed htyped => ?_
  obtain ⟨r, outcome⟩ := typed
  obtain ⟨howns', htyped⟩ := htyped
  -- without routes, no match types fail
  have hempty : (created.withBase (file.base.getD settings.base)).table.addTypes
      file.types.entries = (file.emptyTable settings.base, .ok ()) := by
    show ({ created.table with base := _ } : Table String).addTypes _ = _
    rw [hcreated]
    rfl
  rw [hempty] at htyped
  obtain ⟨htable, rfl⟩ := Prod.mk.inj htyped
  have hadd : Grows (owners ++ more ++ later) (r.addAll file.routes) fun owners' answer =>
      answer.1.matcher.Owns owners' ∧ (answer.1.table, answer.2) = r.table.addAll file.routes :=
    (Router.keeps_addAll howns' file.routes).grows fun _ h => ⟨h.1 ▸ howns', h.2⟩
  refine hadd.bind fun last answer hanswer => ?_
  obtain ⟨r', outcome⟩ := answer
  obtain ⟨hlast, hanswer⟩ := hanswer
  rw [htable] at hanswer
  unfold RouteFile.table
  rw [← hanswer]
  cases outcome with
  | error e => exact grows_pure ⟨rfl, nofun⟩
  | ok _ =>
    refine grows_pure ⟨rfl, fun built heq => ?_⟩
    cases heq
    exact hlast

theorem Router.map_table_ofRouteFile [Regex.SizeLimit] (settings : RouterSettings)
    (file : RouteFile) (s : Session) :
    (Router.ofRouteFile settings file s).1.map Router.table = file.table settings.base := by
  obtain ⟨_, ⟨htable, -⟩, -⟩ :=
    Router.grows_ofRouteFile _ settings file s (faithful_unowned s)
  exact htable

theorem RouteFile.table_eq_error_iff [Regex.SizeLimit] {base : String} {file : RouteFile}
    {e : RouteError} :
    file.table base = .error e ↔ ((file.emptyTable base).addAll file.routes).2 = .error e := by
  unfold RouteFile.table
  generalize (file.emptyTable base).addAll file.routes = answer
  obtain ⟨t, outcome⟩ := answer
  cases outcome with
  | error e' => simp
  | ok _ => simp

theorem RouteFile.table_eq_ok_iff [Regex.SizeLimit] {base : String} {file : RouteFile}
    {t : Table String} :
    file.table base = .ok t ↔ (file.emptyTable base).addAll file.routes = (t, .ok ()) := by
  unfold RouteFile.table
  generalize (file.emptyTable base).addAll file.routes = answer
  obtain ⟨t', outcome⟩ := answer
  cases outcome with
  | error e' => simp
  | ok _ => simp

/-- A router is built from a route file exactly if the routes of the file are
registrable under the match types of the file, which lie over those that are
built in; otherwise the error is that of the first route that is rejected behind
those before it. The router that is built has the routes and the match types of
the file, its base path or else that of the settings, and finds each route under
its name. With and without a cache, and in every session, the result is the
same. -/
theorem ofRouteFile_built [Regex.SizeLimit] (settings : RouterSettings) (file : RouteFile)
    (s : Session) : let built := (Router.ofRouteFile settings file s).1
    (∀ name, file.allTypes.get? name =
      (file.types.get? name).or (MatchTypes.builtIn.get? name)) ∧
    ((∃ r, built = .ok r) ↔ Registrable file.allTypes file.routes) ∧
    (∀ e, built = .error e ↔ ∃ before route after, file.routes = before ++ route :: after ∧
      Registrable file.allTypes before ∧ Rejected file.allTypes before route e) ∧
    (∀ r, built = .ok r → r.routes = file.routes ∧ r.types = file.allTypes ∧
      r.base = file.base.getD settings.base ∧
      ∀ name route, r.named? name = some route ↔
        route ∈ file.routes ∧ route.name = some name) ∧
    ∀ (enabled : Bool) (s' : Session),
      (Router.ofRouteFile ⟨enabled, settings.base⟩ file s').1.map Router.table =
        built.map Router.table := by
  intro built
  have htable : built.map Router.table = file.table settings.base :=
    Router.map_table_ofRouteFile settings file s
  have hofRouter : ∀ {r : Router String}, built = .ok r →
      (file.emptyTable settings.base).addAll file.routes = (r.table, .ok ()) := by
    intro r hr
    rw [hr] at htable
    exact RouteFile.table_eq_ok_iff.mp htable.symm
  have herror : ∀ e, built = .error e ↔
      ((file.emptyTable settings.base).addAll file.routes).2 = .error e := by
    intro e
    rw [← RouteFile.table_eq_error_iff, ← htable]
    cases built with
    | error e' => simp [Except.map]
    | ok r => simp [Except.map]
  have hok : (∃ r, built = .ok r) ↔
      ((file.emptyTable settings.base).addAll file.routes).2 = .ok () := by
    constructor
    · rintro ⟨r, hr⟩
      rw [hofRouter hr]
    · intro hall
      cases hbuilt : built with
      | ok r => exact ⟨r, rfl⟩
      | error e =>
        rw [(herror e).mp hbuilt] at hall
        cases hall
  refine ⟨fun name => Dictionary.get?_extend_entries _ _ name,
    hok.trans (Table.addAll_of_empty (e := .unknownName "") rfl rfl).1,
    fun e => (herror e).trans (Table.addAll_of_empty rfl rfl).2, fun r hr => ?_,
    fun enabled s' => ?_⟩
  · have hall := hofRouter hr
    have hpush : r.table = (file.emptyTable settings.base).pushAll file.routes := by
      rw [← Table.addAll_of_ok file.routes (congrArg Prod.snd hall), hall]
    have hroutes : r.routes = file.routes :=
      (congrArg Table.routes hpush).trans (Table.routes_pushAll file.routes _)
    have hindexed : r.table.Indexed := by
      have hkept : ((file.emptyTable settings.base).addAll file.routes).1.Indexed :=
        Table.addAll_induction (fun _ route h => h.add route) file.routes
          (Table.indexed_create (file.base.getD settings.base))
      rwa [hall] at hkept
    refine ⟨hroutes, (congrArg Table.types hpush).trans (Table.types_pushAll file.routes _),
      (congrArg Table.base hpush).trans (Table.base_pushAll file.routes _), ?_⟩
    intro name route
    rw [Router.mem_routes_of_index hindexed, hroutes]
  · exact (Router.map_table_ofRouteFile ⟨enabled, settings.base⟩ file s').trans htable.symm

/-- A match type of the file itself, and a route that both repeats a name and does not
compile: with it there is no router, and it is the name that is reported. -/
theorem ofRouteFile_built_users :
    let user : Route String := ⟨"GET", "/users/[i:id]", "user", some "user"⟩
    let post : Route String := ⟨"GET", "/posts/[slug:title]", "post", some "post"⟩
    let again : Route String := ⟨"GET", "/users/[uuid:id]", "user", some "user"⟩
    let types := Dictionary.ofList [("slug", "[a-z-]+")]
    (∃ r, (Router.ofRouteFile .usual ⟨some "/api", types, [user, post]⟩ .start).1 = .ok r ∧
      r.routes = [user, post] ∧ r.base = "/api" ∧ r.named? "post" = some post) ∧
    (Router.ofRouteFile .usual ⟨some "/api", types, [user, post, again]⟩ .start).1 =
      .error (.duplicateName "user") := by
  intro user post again types
  let file : RouteFile := ⟨some "/api", types, [user, post]⟩
  have hregistrable : Registrable file.allTypes [user, post] := by
    refine ⟨by decide, ?_⟩
    have hcompiles : ∀ route ∈ [user, post],
        (compileTemplate file.allTypes route.template).isOk = true := by decide +kernel
    exact fun route hmem _ => exists_of_isOk_compileTemplate (hcompiles route hmem)
  constructor
  · obtain ⟨-, hok, -, hbuilt, -⟩ := ofRouteFile_built .usual file .start
    obtain ⟨r, hr⟩ := hok.mpr hregistrable
    obtain ⟨hroutes, -, hbase, hnamed⟩ := hbuilt r hr
    exact ⟨r, hr, hroutes, hbase, (hnamed "post" post).mpr ⟨by decide, rfl⟩⟩
  · obtain ⟨-, -, herror, -⟩ :=
      ofRouteFile_built .usual ⟨some "/api", types, [user, post, again]⟩ .start
    exact (herror _).mpr ⟨[user, post], again, [], rfl, hregistrable, .taken rfl (by decide)⟩

end UrlRouting
