import Mathlib.Data.List.Basic
import UrlRouting.Proofs.Clones.Calls
import UrlRouting.Proofs.Clones.Runs
import UrlRouting.Proofs.Registration
import UrlRouting.Regex.ProgramSize

/-!
# What a failed call leaves behind

A route that is refused leaves the router and all storages as they were. Of
several routes those before the first that is refused are registered, as if one
by one, and those behind it are not looked at. Match types that do not fit stay
all the same: the routes, the names and the base path are as they were, the
types lie over the old ones, and the error is that of the first route that does
not compile under them.

Main statement: `failed_calls`.
-/

namespace UrlRouting

variable {τ : Type}

/-- The route that a call registers by itself. -/
def RouterCall.route? : RouterCall τ → Option (Route τ)
  | .add route => some route
  | .addVerb verb template target name => some (verb.route template target name)
  | _ => none

namespace Router

variable {r r' : Router τ} {route : Route τ} {rest : List (Route τ)} {s s' : Session}
  {e : RouteError}

/-- An action goes on from what its first step gives. -/
theorem bind_of_eq {α β : Type} {x : Action α} {f : α → Action β} {a : α}
    (h : x s = (a, s')) :
    (x >>= f) s = f a s' := by
  show f (x s).1 (x s).2 = f a s'
  rw [h]

variable [Regex.SizeLimit]

/-! ## One route -/

theorem add_of_error (h : (r.add route s).1.2 = .error e) :
    (r.add route s).1 = (r, .error e) ∧ (r.add route s).2.storages = s.storages := by
  rcases leads_add r route s with ⟨⟨e', heq⟩, hstorages⟩ | ⟨heq, -⟩
  · rw [heq] at h
    obtain rfl := Except.error.inj h
    exact ⟨heq, hstorages⟩
  · rw [heq] at h
    cases h

/-- The two kinds of calls that add a route do nothing else. -/
theorem perform_of_route? {c : RouterCall τ} (hc : c.route? = some route) (r : Router τ)
    (s : Session) :
    r.perform c s =
      (((r.add route s).1.1, .outcome (r.add route s).1.2), (r.add route s).2) := by
  cases c with
  | add own => cases hc; rfl
  | addVerb verb template target name => cases hc; rfl
  | _ => cases hc

/-! ## Several routes -/

theorem addEach_cons_of_ok (h : r.add route s = ((r', .ok ()), s')) :
    r.addEach (route :: rest) s = r'.addEach rest s' := by
  rw [addEach]
  exact bind_of_eq h

theorem addEach_cons_of_error (h : r.add route s = ((r', .error e), s')) :
    r.addEach (route :: rest) s = ((r', .error e), s') := by
  rw [addEach]
  exact bind_of_eq h

/-- Routes that are registered together end where they end one by one, at the first that
is refused. -/
theorem addEach_of_error (routes : List (Route τ)) :
    ∀ {r : Router τ} {s : Session}, (r.addEach routes s).1.2 = .error e →
      ∃ before route after, routes = before ++ route :: after ∧
        (∀ answer ∈ (r.performAll (before.map .add) s).1.2, answer = .outcome (.ok ())) ∧
        r.addEach routes s = (r.performAll (before.map .add) s).1.1.add route
          (r.performAll (before.map .add) s).2 := by
  induction routes with
  | nil => exact fun h => nomatch h
  | cons route rest ih =>
    intro r s h
    cases hadd : r.add route s with
    | mk answer s' =>
      obtain ⟨r', outcome⟩ := answer
      cases outcome with
      | error e' =>
        refine ⟨[], route, rest, rfl, nofun, ?_⟩
        rw [addEach_cons_of_error hadd]
        exact hadd.symm
      | ok _ =>
        rw [addEach_cons_of_ok hadd] at h ⊢
        obtain ⟨before, other, after, rfl, hbefore, hend⟩ := ih h
        have hfirst : r.perform (.add route) s = ((r', .outcome (.ok ())), s') := by
          rw [perform_of_route? rfl, hadd]
        refine ⟨route :: before, other, after, rfl, ?_, ?_⟩
        · rw [List.map_cons, performAll_cons, hfirst]
          intro answer hmem
          rcases List.mem_cons.mp hmem with rfl | hmem
          · rfl
          · exact hbefore answer hmem
        · rw [List.map_cons, performAll_cons, hfirst]
          exact hend

theorem addAll_of_error {routes : List (Route τ)}
    (h : (r.addAll routes s).1.2 = .error e) :
    r.addAll routes s = r.addEach routes s := by
  cases heach : r.addEach routes s with
  | mk answer s' =>
    obtain ⟨r', outcome⟩ := answer
    rw [addAll, bind_of_eq heach] at h
    rw [addAll, bind_of_eq heach]
    cases outcome with
    | error e' => rfl
    | ok _ => cases h

/-! ## Match types -/

/-- Match types that do not fit stay, and the first route that does not compile
under them says what is wrong. -/
theorem addTypes_of_error {types : List (String × String)}
    (h : (r.addTypes types s).1.2 = .error e) :
    (r.addTypes types s).1.1.table = { r.table with types := r.types.extend types } ∧
      ∃ before route after, r.routes = before ++ route :: after ∧
        (∀ other ∈ before, prepared (r.types.extend types) other.template = .ok ()) ∧
        prepared (r.types.extend types) route.template = .error e := by
  obtain ⟨_, ⟨-, hanswer⟩, -⟩ := grows_addTypes r types s (faithful_unowned s)
  have htable : (r.addTypes types s).1.1.table = (r.table.addTypes types).1 :=
    congrArg Prod.fst hanswer
  have houtcome : (r.addTypes types s).1.2 = (r.table.addTypes types).2 :=
    congrArg Prod.snd hanswer
  refine ⟨htable, ?_⟩
  rw [houtcome] at h
  obtain ⟨before, template, after, hsplit, hbefore, htemplate⟩ :=
    Table.preparedAll_eq_error_iff.mp h
  -- the templates are those of the routes, in their order
  obtain ⟨first, rest, hroutes, rfl, hrest⟩ := List.map_eq_append_iff.mp hsplit
  obtain ⟨route, later, rfl, rfl, rfl⟩ := List.map_eq_cons_iff.mp hrest
  exact ⟨first, route, later, hroutes,
    fun other hmem => hbefore _ (List.mem_map_of_mem hmem), htemplate⟩

end Router

/-- Whatever a router was before, and whatever is in the storages:
a call that adds one route and fails leaves the router and all storages as they were;
a call that adds several routes and fails ends exactly as adding the routes before the
first that is refused, one by one and without a failure, and then that one;
and new match types that fail leave the routes, their names and the base path, lie over
the old ones, and report what is wrong with the first route, of those whose template is
raw or has a bracket, that does not compile under them. -/
theorem failed_calls [Regex.SizeLimit] (r : Router τ) (s : Session) :
    (∀ (c : RouterCall τ) (route : Route τ) (e : RouteError), c.route? = some route →
      (r.perform c s).1.2 = .outcome (.error e) →
        (r.perform c s).1.1 = r ∧ (r.perform c s).2.storages = s.storages ∧
        ∀ name, r.index? name = none → (r.perform c s).1.1.index? name = none) ∧
    (∀ (routes : List (Route τ)) (e : RouteError), (r.addAll routes s).1.2 = .error e →
      ∃ before route after, routes = before ++ route :: after ∧
        let reached := r.performAll (before.map .add) s
        (∀ answer ∈ reached.1.2, answer = .outcome (.ok ())) ∧
        (reached.1.1.add route reached.2).1.2 = .error e ∧
        (r.addAll routes s).1.1 = reached.1.1 ∧
        (r.addAll routes s).2.storages = reached.2.storages ∧
        r.addAll routes s = reached.1.1.add route reached.2) ∧
    ∀ (types : List (String × String)) (e : RouteError), (r.addTypes types s).1.2 = .error e →
      let r' := (r.addTypes types s).1.1
      r'.routes = r.routes ∧ r'.names = r.names ∧ r'.base = r.base ∧
        r'.types = r.types.extend types ∧
        ∃ before route after, r.routes = before ++ route :: after ∧
          (isRaw route.template || hasBracket route.template) = true ∧
          compileTemplate r'.types route.template = .error e ∧
          ∀ other ∈ before, (isRaw other.template || hasBracket other.template) = true →
            ∃ c, compileTemplate r'.types other.template = .ok c := by
  refine ⟨fun c route e hc h => ?_, fun routes e h => ?_, fun types e h => ?_⟩
  · rw [Router.perform_of_route? hc] at h ⊢
    obtain ⟨hanswer, hstorages⟩ := Router.add_of_error (RouterAnswer.outcome.inj h)
    have hr : (r.add route s).1.1 = r := congrArg Prod.fst hanswer
    exact ⟨hr, hstorages, fun name hfree => by rw [hr]; exact hfree⟩
  · have heach := Router.addAll_of_error h
    rw [heach] at h
    obtain ⟨before, route, after, hsplit, hbefore, hend⟩ := Router.addEach_of_error routes h
    rw [hend] at h
    obtain ⟨hanswer, hstorages⟩ := Router.add_of_error h
    rw [heach, hend]
    exact ⟨before, route, after, hsplit, hbefore, h, congrArg Prod.fst hanswer, hstorages, rfl⟩
  · intro r'
    obtain ⟨htable, before, route, after, hsplit, hbefore, hroute⟩ := Router.addTypes_of_error h
    have htypes : r'.types = r.types.extend types := congrArg Table.types htable
    obtain ⟨hneeds, hcompile⟩ := prepared_eq_error_iff.mp hroute
    refine ⟨congrArg Table.routes htable, congrArg Table.names htable,
      congrArg Table.base htable, htypes, before, route, after, hsplit, ?_, ?_, ?_⟩
    · rw [← needsPattern_eq, hneeds]
    · rw [htypes, hcompile]
    · intro other hmem hneeds
      rw [htypes]
      exact prepared_eq_ok_iff.mp (hbefore other hmem) (by rw [needsPattern_eq, hneeds])

/-- A router with one route is offered a name that is taken, three routes of which the
second has a block without an end, and a match type that is no expression. -/
theorem failed_calls_users :
    let user : Route String := ⟨"GET", "/users/[i:id]", "user", some "user"⟩
    let page : Route String := ⟨"GET", "/pages/[:page]", "page", some "page"⟩
    let broken : Route String := ⟨"GET", "/é[:id", "broken", some "broken"⟩
    let late : Route String := ⟨"GET", "/late", "late", none⟩
    let start := Router.setUp ⟨true, "/api"⟩ [.add user] .start
    let r := start.1.1
    let s := start.2
    let again : RouterCall String := .addVerb .get "/me" "me" (some "user")
    (r.perform again s).1.2 = .outcome (.error (.duplicateName "user")) ∧
      (r.perform again s).1.1 = r ∧ (r.perform again s).2.storages = s.storages ∧
      (r.addAll [page, broken, late] s).1.2 =
        .error (.malformedTemplate "/é[:id" ⟨3, .unclosedOpen⟩) ∧
      (∃ before route after, [page, broken, late] = before ++ route :: after ∧
        (r.addAll [page, broken, late] s).1.1 = (r.performAll (before.map .add) s).1.1) ∧
      (r.addTypes [("i", "(")] s).1.2 =
        .error (.invalidPattern "/users/[i:id]" "^/users(?:/(?P<id>())$" "") ∧
      (r.addTypes [("i", "(")] s).1.1.types = r.types.extend [("i", "(")] := by
  intro user page broken late start r s again
  obtain ⟨hone, hseveral, htypes⟩ := failed_calls r s
  have htaken : (r.add (Verb.get.route "/me" "me" (some "user")) s).1.2 =
      .error (.duplicateName "user") := by decide +kernel
  have hagain : (r.perform again s).1.2 = .outcome (.error (.duplicateName "user")) := by
    rw [Router.perform_of_route? rfl]
    exact congrArg RouterAnswer.outcome htaken
  have hall : (r.addAll [page, broken, late] s).1.2 =
      .error (.malformedTemplate "/é[:id" ⟨3, .unclosedOpen⟩) := by decide +kernel
  have hunfit : (r.addTypes [("i", "(")] s).1.2 =
      .error (.invalidPattern "/users/[i:id]" "^/users(?:/(?P<id>())$" "") := by decide +kernel
  obtain ⟨hr, hstorages, -⟩ := hone again _ _ rfl hagain
  obtain ⟨before, route, after, hsplit, -, -, hreached, -⟩ := hseveral _ _ hall
  obtain ⟨-, -, -, hextended, -⟩ := htypes _ _ hunfit
  exact ⟨hagain, hr, hstorages, hall, ⟨before, route, after, hsplit, hreached⟩, hunfit,
    hextended⟩

end UrlRouting
