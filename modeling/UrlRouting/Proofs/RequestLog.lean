import UrlRouting.Proofs.BasePath
import UrlRouting.Proofs.RouteEvents
import UrlRouting.Regex.ProgramSize

/-!
# What a request writes to the log

A request outside the base path is noted as such, and as nothing else. Any other
one is noted as an attempt, then come the events of the routes that are tried,
in their order and up to the hit, and then the outcome. A route that fails is
noted as passed over, behind its own events. So every request leaves one
outcome, which tells its answer.

Main statement: `request_noted`.
-/

namespace UrlRouting

variable {τ : Type}

/-- The events that tell how a request has ended. -/
def Event.isOutcome : Event → Bool
  | .outsideBase _ _ _ => true
  | .routeMatched _ _ _ _ => true
  | .noRouteMatched _ _ => true
  | _ => false

theorem Event.area_of_isOutcome {event : Event} (h : event.isOutcome = true) :
    event.area = .router := by
  cases event <;> first | rfl | cases h

/-- The outcome of a request for a path. -/
def outcomeOf (request path : String) : Option (Hit τ) → Event
  | some hit => .routeMatched request path hit.route.template hit.route.name
  | none => .noRouteMatched request path

/-! ## Routes that are tried -/

/-- A route that was tried, the events of matching it, and the answer. -/
structure Attempt (τ : Type) where
  route : Route τ
  events : List Event
  answer : Except RouteError (Option Params)

namespace Attempt

/-- What is noted of a route behind its own events. -/
def skip (a : Attempt τ) : List Event :=
  match a.answer with
  | .error _ => [.routeSkipped a.route.template]
  | .ok _ => []

/-- All that is written of a route. -/
def trace (a : Attempt τ) : List Event :=
  a.events ++ a.skip

/-- The session behind a route that matching has left. -/
def behind (a : Attempt τ) (s : Session) : Session :=
  { s with log := a.skip ++ s.log }

/-- The route did not accept the request. -/
def Missed (a : Attempt τ) : Prop :=
  ∀ params, a.answer ≠ .ok (some params)

theorem skip_of_error {a : Attempt τ} {e : RouteError} (h : a.answer = .error e) :
    a.skip = [.routeSkipped a.route.template] := by
  rw [skip, h]

theorem skip_of_ok {a : Attempt τ} {found : Option Params} (h : a.answer = .ok found) :
    a.skip = [] := by
  rw [skip, h]

theorem behind_of_ok {a : Attempt τ} {found : Option Params} (h : a.answer = .ok found)
    (s : Session) : a.behind s = s := by
  rw [behind, skip_of_ok h]
  rfl

end Attempt

/-- Routes are tried one after the other from a session on. Matching each one in
the session that it finds gives its answer and adds its events to the log. -/
inductive Tries [Regex.SizeLimit] (m : Matcher) (path request : String) :
    Session → List (Attempt τ) → Session → Prop
  | nil {s : Session} : Tries m path request s [] s
  | cons {a : Attempt τ} {rest : List (Attempt τ)} {s s' s'' : Session}
    (hmatch : m.matchRoute a.route.methods a.route.template path request s = (a.answer, s'))
    (hlog : s'.log = a.events.reverse ++ s.log)
    (hnoted : RouteNoted m.types a.route.methods a.route.template path request a.events a.answer)
    (hrest : Tries m path request (a.behind s') rest s'') :
    Tries m path request s (a :: rest) s''

/-- The routes that are tried: all of them without a hit, and otherwise those up
to the hit, which alone accepts. -/
def TriedFor (routes : List (Route τ)) (tried : List (Attempt τ)) : Option (Hit τ) → Prop
  | none => tried.map Attempt.route = routes ∧ ∀ a ∈ tried, a.Missed
  | some hit => ∃ before last after, tried = before ++ [last] ∧
      routes = tried.map Attempt.route ++ after ∧ (∀ a ∈ before, a.Missed) ∧
      last.route = hit.route ∧ last.answer = .ok (some hit.params)

section Trying

variable {m : Matcher} {path request : String} {s s' : Session} {a : Attempt τ}
  {tried : List (Attempt τ)} {route : Route τ} {routes : List (Route τ)}

theorem TriedFor.cons {answer : Option (Hit τ)} (h : TriedFor routes tried answer)
    (hmissed : a.Missed) : TriedFor (a.route :: routes) (a :: tried) answer := by
  cases answer with
  | none =>
    obtain ⟨rfl, hall⟩ := h
    exact ⟨rfl, List.forall_mem_cons.mpr ⟨hmissed, hall⟩⟩
  | some hit =>
    obtain ⟨before, last, after, rfl, rfl, hbefore, hlast⟩ := h
    exact ⟨a :: before, last, after, rfl, rfl, List.forall_mem_cons.mpr ⟨hmissed, hbefore⟩, hlast⟩

variable [Regex.SizeLimit]

/-- Matching a route is an attempt. -/
theorem exists_attempt (m : Matcher) (route : Route τ) (path request : String)
    (s : Session) :
    ∃ a : Attempt τ, a.route = route ∧
      m.matchRoute route.methods route.template path request s =
        (a.answer, (m.matchRoute route.methods route.template path request s).2) ∧
      (m.matchRoute route.methods route.template path request s).2.log =
        a.events.reverse ++ s.log ∧
      RouteNoted m.types route.methods route.template path request a.events a.answer := by
  obtain ⟨events, hlog, hnoted⟩ := m.writes_matchRoute route.methods route.template path request s
  have hreverse : events.reverse = events := by
    have hsingle := hnoted.single
    match events with
    | [] => rfl
    | [event] => rfl
    | _ :: _ :: _ => simp at hsingle
  exact ⟨⟨route, events, _⟩, rfl, rfl, hreverse.symm ▸ hlog, hnoted⟩

/-- The search for a hit tries routes in order, up to the hit. -/
theorem tries_firstHit (m : Matcher) (path request : String) (routes : List (Route τ))
    (s : Session) :
    ∃ tried, Tries m path request s tried (Router.firstHit m path request routes s).2 ∧
      TriedFor routes tried (Router.firstHit m path request routes s).1 := by
  induction routes generalizing s with
  | nil => exact ⟨[], .nil, rfl, nofun⟩
  | cons route rest ih =>
    obtain ⟨a, rfl, hmatch, hlog, hnoted⟩ := exists_attempt m route path request s
    generalize (m.matchRoute a.route.methods a.route.template path request s).2 = s' at *
    by_cases hhit : ∃ params, a.answer = .ok (some params)
    · obtain ⟨params, hanswer⟩ := hhit
      have hsearch : Router.firstHit m path request (a.route :: rest) s =
          (some ⟨a.route, params⟩, s') := by
        simp only [Router.firstHit, Bind.bind, StateT.bind, hmatch, hanswer]
        rfl
      rw [hsearch]
      refine ⟨[a], .cons hmatch hlog hnoted ?_, ?_⟩
      · rw [a.behind_of_ok hanswer]
        exact .nil
      · exact ⟨[], a, rest, rfl, rfl, nofun, rfl, hanswer⟩
    · have hmissed : a.Missed := not_exists.mp hhit
      have hsearch : Router.firstHit m path request (a.route :: rest) s =
          Router.firstHit m path request rest (a.behind s') := by
        simp only [Router.firstHit, Bind.bind, StateT.bind, hmatch]
        cases hanswer : a.answer with
        | error e =>
          rw [Attempt.behind, a.skip_of_error hanswer]
          rfl
        | ok found =>
          rw [a.behind_of_ok hanswer]
          cases found with
          | none => rfl
          | some params => exact absurd hanswer (hmissed params)
      rw [hsearch]
      obtain ⟨tried, htried, hfor⟩ := ih (a.behind s')
      exact ⟨a :: tried, .cons hmatch hlog hnoted htried, hfor.cons hmissed⟩

/-- The log behind routes that were tried. -/
theorem Tries.log_eq (h : Tries m path request s tried s') :
    s'.log = (tried.flatMap Attempt.trace).reverse ++ s.log := by
  induction h with
  | nil => rfl
  | @cons a rest s s' s'' _ hlog _ _ ih =>
    have hskip : a.skip.reverse = a.skip := by
      cases hanswer : a.answer with
      | error e => rw [a.skip_of_error hanswer, List.reverse_singleton]
      | ok found => rw [a.skip_of_ok hanswer, List.reverse_nil]
    rw [ih, Attempt.behind, hlog, List.flatMap_cons, Attempt.trace]
    simp [hskip]

/-- What is written of routes does not tell how the request has ended. -/
theorem Tries.noOutcome (h : Tries m path request s tried s') :
    ∀ event ∈ tried.flatMap Attempt.trace, ¬ event.isOutcome = true := by
  induction h with
  | nil => nofun
  | @cons a rest s s' s'' _ _ hnoted _ ih =>
    intro event hmem
    rw [List.flatMap_cons, List.mem_append, Attempt.trace, List.mem_append] at hmem
    rcases hmem with (hmem | hmem) | hmem
    · exact fun houtcome => hnoted.own event hmem (Event.area_of_isOutcome houtcome)
    · cases hanswer : a.answer with
      | error e =>
        rw [a.skip_of_error hanswer, List.mem_singleton] at hmem
        rw [hmem]
        exact Bool.false_ne_true
      | ok found =>
        rw [a.skip_of_ok hanswer] at hmem
        cases hmem
    · exact ih event hmem

end Trying

/-! ## Requests -/

namespace Router

theorem matchRequest_of_outside [Regex.SizeLimit] {r : Router τ} {url : String}
    (h : r.requestPath url = none) (request : String) (s : Session) :
    r.matchRequest url request s = (none, s.note (.outsideBase request url r.base)) := by
  unfold matchRequest
  rw [h]
  rfl

theorem matchRequest_of_inside [Regex.SizeLimit] {r : Router τ} {url path : String}
    (h : r.requestPath url = some path) (request : String) (s : Session) :
    let searched := firstHit r.matcher path request r.routes (s.note (.matchAttempt request path))
    r.matchRequest url request s =
      (searched.1, searched.2.note (outcomeOf request path searched.1)) := by
  intro searched
  have hnote : note (.matchAttempt request path) s =
      ((), s.note (.matchAttempt request path)) := rfl
  have hsearched : firstHit r.matcher path request r.routes
      (s.note (.matchAttempt request path)) = (searched.1, searched.2) := rfl
  unfold matchRequest
  rw [h]
  simp only [Bind.bind, StateT.bind, hnote, hsearched]
  cases searched.1 with
  | none => rfl
  | some hit => rfl

end Router

/-- Every request leaves one outcome in the log, which tells its answer. If the
URL is not behind the base path, this is all that it writes, and there is no
hit. Otherwise an attempt comes first and the outcome last. Between them stands
what is written of the routes that are tried: all of them if there is no hit,
and otherwise those up to the hit, each with the events of matching it where the
one before has left the session, which is at most one, a rejection exactly if
its literal text rejects the path, and followed by the note that it is passed
over exactly if matching fails. -/
theorem request_noted [Regex.SizeLimit] (r : Router τ) (url request : String)
    (s : Session) :
    let answer := (r.matchRequest url request s).1
    let left := (r.matchRequest url request s).2
    let behind := fun path : String => withoutQuery url.toList = r.base.toList ++ path.toList ∧
      AtBoundary r.base.toList path.toList
    ∃ events, left.log = events.reverse ++ s.log ∧
      ((∀ path, ¬ behind path) →
        answer = none ∧ events = [.outsideBase request url r.base]) ∧
      ∀ path, behind path →
        events.filter Event.isOutcome = [outcomeOf request path answer] ∧
        ∃ tried last,
          Tries r.matcher path request (s.note (.matchAttempt request path)) tried last ∧
          TriedFor r.routes tried answer ∧
          events = .matchAttempt request path ::
            (tried.flatMap Attempt.trace ++ [outcomeOf request path answer]) ∧
          left = last.note (outcomeOf request path answer) := by
  intro answer left behind
  have hbehind : ∀ path, behind path ↔ r.requestPath url = some path :=
    fun path => Router.requestPath_eq_some_iff.symm
  simp only [hbehind, ← Option.eq_none_iff_forall_ne_some]
  cases hpath : r.requestPath url with
  | none =>
    have hrequest := Router.matchRequest_of_outside hpath request s
    refine ⟨[.outsideBase request url r.base], ?_, fun _ => ⟨?_, rfl⟩, nofun⟩
    · exact congrArg (·.2.log) hrequest
    · exact congrArg (·.1) hrequest
  | some path =>
    have hrequest := Router.matchRequest_of_inside hpath request s
    obtain ⟨tried, htries, hfor⟩ := tries_firstHit r.matcher path request r.routes
      (s.note (.matchAttempt request path))
    generalize Router.firstHit r.matcher path request r.routes
      (s.note (.matchAttempt request path)) = searched at hrequest htries hfor
    have hanswer : answer = searched.1 := congrArg (·.1) hrequest
    have hleft : left = searched.2.note (outcomeOf request path searched.1) :=
      congrArg (·.2) hrequest
    rw [← hanswer] at hfor hleft
    refine ⟨.matchAttempt request path ::
      (tried.flatMap Attempt.trace ++ [outcomeOf request path answer]), ?_, nofun, ?_⟩
    · rw [hleft]
      show _ :: searched.2.log = _
      rw [htries.log_eq]
      simp [Session.note]
    · intro path' hpath'
      obtain rfl := Option.some.inj hpath'
      refine ⟨?_, tried, searched.2, htries, hfor, rfl, hleft⟩
      have hnone : (tried.flatMap Attempt.trace).filter Event.isOutcome = [] :=
        List.filter_eq_nil_iff.mpr htries.noOutcome
      have hlast : [outcomeOf request path answer].filter Event.isOutcome =
          [outcomeOf request path answer] := by
        cases answer with
        | none => rfl
        | some hit => rfl
      rw [List.filter_cons_of_neg Bool.false_ne_true, List.filter_append, hnone, hlast]
      rfl

/-- One route does not compile, one rejects the path by its literal text, and
one takes it, so that the last one is not tried. Another URL is not behind the
base path. -/
theorem request_noted_any :
    let user : Route String := ⟨"GET", "/users/[i:id]", "user", some "user"⟩
    let page : Route String := ⟨"GET", "/pages/[h:page]?", "page", none⟩
    let any : Route String := ⟨"GET|POST", "*", "any", some "any"⟩
    let name : Route String := ⟨"GET", "/users/[a:name]", "name", none⟩
    let r : Router String := ⟨[user, page, any, name], [("any", 2), ("user", 0)], "/app",
      ⟨MatchTypes.builtIn.extend [("i", "(")], ⟨0, true⟩⟩⟩
    let request := r.matchRequest "/app/users/7?tab=posts" "GET" .start
    (∃ tried : List (Attempt String), TriedFor r.routes tried (some ⟨any, .empty⟩) ∧
      request.2.log.reverse = .matchAttempt "GET" "/users/7" ::
        (tried.flatMap Attempt.trace ++ [.routeMatched "GET" "/users/7" "*" (some "any")])) ∧
    request.2.log.reverse = [.matchAttempt "GET" "/users/7",
      .patternRefused "/users/[i:id]" "^/users(?:/(?P<id>())$", .routeSkipped "/users/[i:id]",
      .literalRejected "/pages/[h:page]?" "/users/7" 1,
      .routeMatched "GET" "/users/7" "*" (some "any")] ∧
    (r.matchRequest "/api/users" "GET" .start).2.log =
      [.outsideBase "GET" "/api/users" "/app"] := by
  intro user page any name r request
  have hanswer : request.1 = some ⟨any, .empty⟩ := by decide +kernel
  refine ⟨?_, by decide +kernel, ?_⟩
  · obtain ⟨events, hlog, -, hinside⟩ := request_noted r "/app/users/7?tab=posts" "GET" .start
    obtain ⟨-, tried, _, -, hfor, hevents, -⟩ :=
      hinside "/users/7" ⟨by decide, .inr (.inr (.inl rfl))⟩
    rw [hanswer] at hfor hevents
    refine ⟨tried, hfor, ?_⟩
    rw [hlog, hevents]
    simp [outcomeOf, any, Session.start]
  · obtain ⟨events, hlog, houtside, -⟩ := request_noted r "/api/users" "GET" .start
    have hpath : ∀ path : String, ¬ (withoutQuery "/api/users".toList =
        r.base.toList ++ path.toList ∧ AtBoundary r.base.toList path.toList) := by
      rintro path ⟨hpath, -⟩
      simp [withoutQuery, r] at hpath
    obtain ⟨-, rfl⟩ := houtside hpath
    exact hlog

end UrlRouting
