import Mathlib.Data.List.Basic
import UrlRouting.Proofs.Dictionaries
import UrlRouting.Proofs.FailedCalls
import UrlRouting.Proofs.ReverseRouting
import UrlRouting.Proofs.RouteEvents
import UrlRouting.Proofs.Template.Layout
import UrlRouting.Regex.ProgramSize

/-!
# Match types stay known

Match types are put over others but never taken away. A template is registered
only if it compiles, so its blocks name types of the table at that moment, and
they name types of every later table. What can still go wrong with a registered
template is that the types it names no longer make an expression of its pattern
text, and this is the only reason for which new match types fail or a request
passes a route over.

Main statement: `unfit_of_family`.
-/

namespace UrlRouting

/-! ## Templates -/

section Templates

variable {types : MatchTypes} {segments : List Segment} {template : String}

theorem isSome_get?_extend (more : List (String × String)) {name : String}
    (h : (types.get? name).isSome) : ((types.extend more).get? name).isSome := by
  rw [Dictionary.get?_extend, Option.isSome_or, h, Bool.or_true]

/-- A raw template has the same text under all match types. -/
theorem anyPatternText_of_raw (hraw : isRaw template = true) :
    ∃ text, ∀ types, anyPatternText types template = .ok text := by
  obtain ⟨raw, hlist⟩ : ∃ raw, template.toList = '@' :: raw := by
    simpa [isRaw, List.head?_eq_some_iff] using hraw
  exact ⟨String.ofList (rawText raw), fun types => by simp only [anyPatternText, hlist]⟩

theorem exists_patternText_iff :
    (∃ text, patternText types template = .ok text) ↔
      ∃ segments, readTemplate template = .ok segments ∧
        ∀ b ∈ blocksOf segments, (types.get? b.typeName).isSome := by
  simp only [← exists_segmentsText_iff, patternText_eq_ok_iff]
  constructor
  · rintro ⟨_, segments, inner, hread, hinner, -⟩
    exact ⟨segments, hread, inner, hinner⟩
  · rintro ⟨segments, hread, inner, hinner⟩
    exact ⟨_, segments, inner, hread, hinner, rfl⟩

variable [Regex.SizeLimit]

theorem compileTemplate_of_raw (hraw : isRaw template = true)
    (types others : MatchTypes) :
    compileTemplate types template = compileTemplate others template := by
  obtain ⟨text, htext⟩ := anyPatternText_of_raw hraw
  simp only [compileTemplate, htext]

/-- A template fails to compile without a pattern text, or else with it. -/
theorem compileTemplate_eq_error_iff {e : RouteError} :
    compileTemplate types template = .error e ↔
      anyPatternText types template = .error e ∨
        ∃ text, anyPatternText types template = .ok text ∧
          Regex.Pattern.ofText? text.toList = none ∧ e = .invalidPattern template text "" := by
  unfold compileTemplate
  cases htext : anyPatternText types template with
  | error e' => simp
  | ok text =>
    dsimp only
    cases hexpr : Regex.Pattern.ofText? text.toList with
    | none => simp [hexpr, eq_comm]
    | some expr => simp [hexpr]

/-- What more match types leave of a template: a raw one compiles, and a bracket
template has its pattern text, whether it is an expression or not. -/
structure Resolved (types : MatchTypes) (template : String) : Prop where
  raw : isRaw template = true → ∃ c, compileTemplate types template = .ok c
  bracket : isRaw template = false → hasBracket template = true →
    ∃ text, patternText types template = .ok text

theorem resolved_of_prepared (h : prepared types template = .ok ()) :
    Resolved types template := by
  rw [prepared_eq_ok_iff, needsPattern_eq] at h
  refine ⟨fun hraw => h (by rw [hraw, Bool.true_or]), fun hraw hbracket => ?_⟩
  obtain ⟨c, hcompile⟩ := h (by rw [hbracket, Bool.or_true])
  obtain ⟨text, -, htext, -⟩ := compileTemplate_eq_ok_iff.mp hcompile
  exact ⟨text, anyPatternText_of_not_raw hraw ▸ htext⟩

theorem Resolved.extend (h : Resolved types template) (more : List (String × String)) :
    Resolved (types.extend more) template := by
  refine ⟨fun hraw => ?_, fun hraw hbracket => ?_⟩
  · rw [compileTemplate_of_raw hraw (types.extend more) types]
    exact h.raw hraw
  · obtain ⟨segments, hread, hknown⟩ := exists_patternText_iff.mp (h.bracket hraw hbracket)
    exact exists_patternText_iff.mpr
      ⟨segments, hread, fun b hmem => isSome_get?_extend more (hknown b hmem)⟩

/-- A template whose pattern text is no expression: it has a block, and it is
not raw. -/
def Unfit (types : MatchTypes) (template text : String) : Prop :=
  isRaw template = false ∧
    (∃ segments, readTemplate template = .ok segments ∧ blocksOf segments ≠ []) ∧
    patternText types template = .ok text ∧
    compileTemplate types template = .error (.invalidPattern template text "")

/-- A resolved template fails to compile in one way only. -/
theorem Resolved.unfit (h : Resolved types template) {e : RouteError}
    (hneeds : needsPattern template = true)
    (he : compileTemplate types template = .error e) :
    ∃ text, e = .invalidPattern template text "" ∧ Unfit types template text := by
  have hraw : isRaw template = false := by
    rw [Bool.eq_false_iff]
    intro hraw
    obtain ⟨c, hcompile⟩ := h.raw hraw
    rw [he] at hcompile
    cases hcompile
  have hbracket : hasBracket template = true := by
    rwa [needsPattern_eq, hraw, Bool.false_or] at hneeds
  obtain ⟨text, htext⟩ := h.bracket hraw hbracket
  obtain ⟨segments, -, hread, -⟩ := patternText_eq_ok_iff.mp htext
  obtain ⟨before, b, rest, rfl, -⟩ := exists_block_of_readTemplate hbracket hread
  have herror : e = .invalidPattern template text "" := by
    rw [compileTemplate_eq_error_iff, anyPatternText_of_not_raw hraw, htext] at he
    rcases he with he | ⟨text', htext', -, rfl⟩
    · cases he
    · rw [Except.ok.inj htext']
  refine ⟨text, herror, hraw, ⟨_, hread, ?_⟩, htext, herror ▸ he⟩
  have hmem : b ∈ blocksOf (literalSegments before ++ .block b :: rest) :=
    List.mem_filterMap.mpr ⟨.block b, by simp, rfl⟩
  exact List.ne_nil_of_mem hmem

end Templates

/-! ## Tables -/

namespace Table

variable [Regex.SizeLimit] {τ : Type}

/-- Every registered template is resolved by the types of the table. -/
def Resolved (t : Table τ) : Prop :=
  ∀ route ∈ t.routes, UrlRouting.Resolved t.types route.template

theorem resolved_create (base : String) : (create (τ := τ) base).Resolved := by
  intro route hmem
  cases hmem

theorem types_addAll (t : Table τ) (routes : List (Route τ)) :
    (t.addAll routes).1.types = t.types := by
  have hadd : ∀ (t' : Table τ) (route : Route τ), t'.types = t.types →
      (t'.add route).1.types = t.types :=
    fun t' route h => (t'.types_add route).trans h
  exact addAll_induction hadd routes rfl

/-- A call leaves the types as they are or puts more over them. -/
theorem types_perform (t : Table τ) (c : RouterCall τ) :
    ∃ more, (t.perform c).1.types = t.types.extend more := by
  cases c with
  | add route => exact ⟨[], t.types_add route⟩
  | addVerb verb template target name => exact ⟨[], t.types_add _⟩
  | addAll routes => exact ⟨[], t.types_addAll routes⟩
  | addTypes types => exact ⟨types, rfl⟩
  | setBase base => exact ⟨[], rfl⟩
  | routes => exact ⟨[], rfl⟩
  | named name => exact ⟨[], rfl⟩
  | generate name params => exact ⟨[], rfl⟩
  | matchRequest url request => exact ⟨[], rfl⟩

/-- What was registered before stays resolved under more types, and what a call
registers compiles under the types that it finds. -/
theorem Resolved.perform {t : Table τ} (h : t.Resolved) (c : RouterCall τ) :
    (t.perform c).1.Resolved := by
  intro route hmem
  obtain ⟨more, htypes⟩ := t.types_perform c
  rw [htypes]
  rcases prepared_of_mem_perform c hmem with hold | hprepared
  · exact (h route hold).extend more
  · exact (resolved_of_prepared hprepared).extend more

end Table

/-! ## What is noted of a route that is passed over -/

/-- Every time a log says that a route was passed over, its template needs a pattern and
does not compile, and what the log says directly before is the event of that error. -/
def SkipsNoted [Regex.SizeLimit] (types : MatchTypes) (templates : List String)
    (events : List Event) : Prop :=
  ∀ later template earlier, events = later ++ .routeSkipped template :: earlier →
    template ∈ templates ∧ needsPattern template = true ∧
      ∃ e, compileTemplate types template = .error e ∧ e.noted <+: earlier

section Skips

variable [Regex.SizeLimit] {types : MatchTypes} {templates more : List String}
  {events others : List Event}

theorem skipsNoted_of_forall (h : ∀ template, .routeSkipped template ∉ events) :
    SkipsNoted types templates events := by
  rintro later template earlier rfl
  exact absurd (List.mem_append_right _ (List.mem_cons_self ..)) (h template)

theorem SkipsNoted.mono (h : SkipsNoted types templates events)
    (hsub : ∀ template ∈ templates, template ∈ more) : SkipsNoted types more events := by
  intro later template earlier heq
  obtain ⟨hmem, hskipped⟩ := h later template earlier heq
  exact ⟨hsub template hmem, hskipped⟩

theorem SkipsNoted.append (h : SkipsNoted types templates events)
    (h' : SkipsNoted types templates others) :
    SkipsNoted types templates (others ++ events) := by
  intro later template earlier heq
  rcases List.append_eq_append_iff.mp heq with ⟨between, rfl, hevents⟩ | ⟨between, rfl, hskip⟩
  · exact h between template earlier hevents
  · cases between with
    | nil => exact h [] template earlier hskip.symm
    | cons event between =>
      obtain ⟨rfl, rfl⟩ := List.cons.inj hskip
      obtain ⟨hmem, hneeds, e, he, hnoted⟩ := h' later template between rfl
      exact ⟨hmem, hneeds, e, he, hnoted.trans (List.prefix_append _ _)⟩

theorem skipsNoted_skip {template : String} {e : RouteError} (hmem : template ∈ templates)
    (hneeds : needsPattern template = true)
    (he : compileTemplate types template = .error e)
    (hnoted : e.noted = events) (hevents : ∀ skipped, .routeSkipped skipped ∉ events) :
    SkipsNoted types templates (.routeSkipped template :: events) := by
  intro later other earlier heq
  cases later with
  | nil =>
    obtain ⟨hskipped, rfl⟩ := List.cons.inj heq
    obtain rfl := Event.routeSkipped.inj hskipped
    exact ⟨hmem, hneeds, e, he, hnoted ▸ List.prefix_rfl⟩
  | cons event later =>
    obtain ⟨-, rfl⟩ := List.cons.inj heq
    exact absurd (List.mem_append_right _ (List.mem_cons_self ..)) (hevents other)

end Skips

namespace Router

variable {τ : Type}

theorem writes_firstHit [Regex.SizeLimit] (m : Matcher) (path request : String)
    (routes : List (Route τ)) :
    Writes (firstHit m path request routes) fun events _ =>
      SkipsNoted m.types (routes.map (·.template)) events := by
  induction routes with
  | nil => exact writes_pure (skipsNoted_of_forall fun _ => List.not_mem_nil)
  | cons route rest ih =>
    have hrest : Writes (firstHit m path request rest) fun events _ =>
        SkipsNoted m.types ((route :: rest).map (·.template)) events :=
      ih.imp fun _ _ h => h.mono fun _ hmem => List.mem_cons_of_mem _ hmem
    unfold firstHit
    refine (m.writes_matchRoute route.methods route.template path request).bind fun answer => ?_
    cases answer with
    | ok found =>
      cases found with
      | some params =>
        exact writes_pure fun events h => skipsNoted_of_forall h.noSkip
      | none =>
        refine hrest.imp fun more _ hmore events h => ?_
        exact (skipsNoted_of_forall h.noSkip).append hmore
    | error e =>
      refine (writes_note _).bind fun _ => hrest.imp fun more _ hmore skip hskip events h => ?_
      subst hskip
      obtain ⟨hneeds, hcompile, hevents⟩ := h.refusal e rfl
      have hskipped : SkipsNoted m.types ((route :: rest).map (·.template))
          (.routeSkipped route.template :: events) :=
        skipsNoted_skip (List.mem_cons_self ..) hneeds hcompile hevents.symm h.noSkip
      rw [List.append_assoc]
      exact hskipped.append hmore

theorem writes_matchRequest [Regex.SizeLimit] (r : Router τ) (url request : String) :
    Writes (r.matchRequest url request) fun events _ =>
      SkipsNoted r.types (r.routes.map (·.template)) events := by
  unfold Router.matchRequest
  split
  · refine (writes_note _).bind fun _ => writes_pure ?_
    rintro _ rfl
    exact skipsNoted_of_forall (by simp)
  · next path _ =>
    refine (writes_note _).bind fun _ => ?_
    refine (writes_firstHit r.matcher path request r.routes).bind fun answer => ?_
    cases answer <;>
    · refine (writes_note _).bind fun _ => writes_pure ?_
      rintro _ rfl events h _ rfl
      have hattempt : SkipsNoted r.types (r.routes.map (·.template))
          [.matchAttempt request path] := skipsNoted_of_forall (by simp)
      exact hattempt.append (h.append (skipsNoted_of_forall (by simp)))

end Router

/-! ## Routers -/

variable {τ : Type}

/-- What fails of a route under match types: it is registered, and its pattern
text under the types is no expression. -/
def Router.HasUnfit [Regex.SizeLimit] (r : Router τ) (types : MatchTypes)
    (template text : String) : Prop :=
  (∃ route ∈ r.routes, route.template = template) ∧ Unfit types template text

/-- For every router that a run of a family reaches, whatever failed in the run,
and in whatever session: if new match types fail, the error is an invalid
pattern of a registered template that is not raw and has a block, and its text
is the pattern text of the template under the types that the router has then;
and whenever a request passes a route over, what it notes directly before is
that the pattern of the route's template, which is not raw and has a block, is
no expression. -/
theorem unfit_of_family [Regex.SizeLimit] {settings : RouterSettings}
    {steps : List (FamilyStep (RouterCall τ))} {s : Session} {r : Router τ}
    (hr : r ∈ (startFamily (Router.create settings) Router.perform steps s).1.1)
    (now : Session) :
    (∀ types e, (r.addTypes types now).1.2 = .error e →
      ∃ template text, e = .invalidPattern template text "" ∧
        r.HasUnfit (r.addTypes types now).1.1.types template text) ∧
    ∀ url request, ∃ events, (r.matchRequest url request now).2.log = events ++ now.log ∧
      ∀ later template earlier, events = later ++ .routeSkipped template :: earlier →
        ∃ text before, earlier = .patternRefused template text :: before ∧
          r.HasUnfit r.types template text := by
  have hresolved : r.table.Resolved :=
    table_of_family (Table.resolved_create _) (fun _ c h => h.perform c) hr
  refine ⟨fun types e h => ?_, fun url request => ?_⟩
  · obtain ⟨htable, before, route, after, hroutes, -, hroute⟩ := Router.addTypes_of_error h
    have hmem : route ∈ r.routes := by
      rw [hroutes]
      exact List.mem_append_right _ (List.mem_cons_self ..)
    have htypes : (r.addTypes types now).1.1.types = r.types.extend types :=
      congrArg Table.types htable
    obtain ⟨hneeds, hcompile⟩ := prepared_eq_error_iff.mp hroute
    obtain ⟨text, rfl, hunfit⟩ := ((hresolved route hmem).extend types).unfit hneeds hcompile
    refine ⟨route.template, text, rfl, ⟨route, hmem, rfl⟩, ?_⟩
    rw [htypes]
    exact hunfit
  · obtain ⟨events, hlog, hskips⟩ := Router.writes_matchRequest r url request now
    refine ⟨events, hlog, fun later template earlier heq => ?_⟩
    obtain ⟨htemplate, hneeds, e, hcompile, hnoted⟩ := hskips later template earlier heq
    obtain ⟨route, hmem, rfl⟩ := List.mem_map.mp htemplate
    obtain ⟨text, rfl, hunfit⟩ := (hresolved route hmem).unfit hneeds hcompile
    obtain ⟨before, rfl⟩ := hnoted
    exact ⟨text, before, rfl, ⟨route, hmem, rfl⟩, hunfit⟩

/-- A call on the original fails and leaves `(` as the type `i`, then it is
cloned. Types that fit fail on the clone for the first route that `(` does not
fit, and a request passes that route over. -/
theorem unfit_of_family_users :
    let user : Route String := ⟨"GET", "/users/[i:id]", "user", some "user"⟩
    let raw : Route String := ⟨"GET", "@/pages/[0-9]+", "page", none⟩
    let page : Route String := ⟨"GET", "/pages/[i:page]?", "page", none⟩
    let steps : List (FamilyStep (RouterCall String)) :=
      [.call 0 (.addAll [raw, user, page]), .call 0 (.addTypes [("i", "(")]), .clone 0]
    let r : Router String := ⟨[raw, user, page], [("user", 1)], "",
      ⟨MatchTypes.builtIn.extend [("i", "(")], ⟨1, true⟩⟩⟩
    let family := startFamily (Router.create ⟨true, ""⟩) Router.perform steps .start
    let refused := "^/users(?:/(?P<id>())$"
    r ∈ family.1.1 ∧
      (r.addTypes [("a", "[a-z]")] family.2).1.2 =
        .error (.invalidPattern "/users/[i:id]" refused "") ∧
      (∃ template text, .invalidPattern "/users/[i:id]" refused "" =
          RouteError.invalidPattern template text "" ∧
        r.HasUnfit (r.addTypes [("a", "[a-z]")] family.2).1.1.types template text) ∧
      (r.matchRequest "/users/7" "GET" family.2).2.log =
        [.noRouteMatched "GET" "/users/7", .literalRejected "/pages/[i:page]?" "/users/7" 1,
          .routeSkipped "/users/[i:id]", .patternRefused "/users/[i:id]" refused,
          .matchAttempt "GET" "/users/7"] ++ family.2.log ∧
      ∃ text, r.HasUnfit r.types "/users/[i:id]" text := by
  intro user raw page steps r family refused
  have hr : r ∈ family.1.1 := by decide +kernel
  have hfails : (r.addTypes [("a", "[a-z]")] family.2).1.2 =
      .error (.invalidPattern "/users/[i:id]" refused "") := by decide +kernel
  have hlog : (r.matchRequest "/users/7" "GET" family.2).2.log =
      [.noRouteMatched "GET" "/users/7", .literalRejected "/pages/[i:page]?" "/users/7" 1,
        .routeSkipped "/users/[i:id]", .patternRefused "/users/[i:id]" refused,
        .matchAttempt "GET" "/users/7"] ++ family.2.log := by decide +kernel
  obtain ⟨hadd, hrequest⟩ := unfit_of_family hr family.2
  obtain ⟨events, hevents, hskips⟩ := hrequest "/users/7" "GET"
  obtain rfl := List.append_cancel_right (hlog.symm.trans hevents)
  obtain ⟨text, _, -, hunfit⟩ := hskips [_, _] _ _ rfl
  exact ⟨hr, hfails, hadd _ _ hfails, hlog, text, hunfit⟩

end UrlRouting
