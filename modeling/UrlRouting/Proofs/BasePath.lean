import Mathlib.Data.List.TakeWhile
import UrlRouting.Router.Request
import UrlRouting.Regex.ProgramSize

/-!
# Base path and query

A base path stands before every URL that a router generates and is taken off
every path that it matches. Nothing else about a router depends on it: behind
its base path it is the router without one. What follows the first question mark
of a URL is never looked at.

Main statement: `withBase_transparent`.
-/

namespace UrlRouting

/-! ## Paths -/

/-- The rest of a path begins a segment behind a base path. -/
def AtBoundary (base rest : List Char) : Prop :=
  base = [] ∨ rest = [] ∨ rest.head? = some '/' ∨ base.getLast? = some '/'

/-- A path that is matched is the base path and a rest that begins a segment. -/
theorem relativePath_eq_some_iff {base path rest : List Char} :
    relativePath base path = some rest ↔ path = base ++ rest ∧ AtBoundary base rest := by
  unfold relativePath AtBoundary
  by_cases hbase : base = []
  · simp [hbase]
  · simp [hbase, Option.filter_eq_some_iff, dropStart_eq_some_iff, or_assoc]

/-- A path without a query is the path itself. -/
theorem withoutQuery_of_append {url base rest : List Char}
    (h : withoutQuery url = base ++ rest) :
    withoutQuery rest = rest := by
  unfold withoutQuery at h ⊢
  rw [List.takeWhile_eq_self_iff]
  intro c hc
  have hmem : c ∈ url.takeWhile (· ≠ '?') := by
    rw [h]
    exact List.mem_append_right _ hc
  simpa using List.mem_takeWhile_imp hmem

/-! ## URLs and requests -/

namespace Router

variable {τ : Type} {r r' : Router τ} {url url' path : String}

/-- Generating a URL puts the base path before what it would give without one. -/
theorem generate_eq_map {σ : Type} [ParamSource σ] (r : Router τ) (name : String)
    (params : σ) :
    r.generate name params = ((r.withBase "").generate name params).map (r.base ++ ·) := by
  have hnamed : (r.withBase "").named? name = r.named? name := rfl
  unfold generate
  rw [hnamed]
  cases r.named? name with
  | none => rfl
  | some route =>
    simp only [generateUrl, withBase]
    split
    · simp [Except.map]
    · split
      · rfl
      · simp [Except.map]

theorem requestPath_eq_some_iff :
    r.requestPath url = some path ↔
      withoutQuery url.toList = r.base.toList ++ path.toList ∧
        AtBoundary r.base.toList path.toList := by
  unfold requestPath
  rw [Option.map_eq_some_iff, ← relativePath_eq_some_iff]
  constructor
  · rintro ⟨rest, hrest, rfl⟩
    rwa [String.toList_ofList]
  · intro h
    exact ⟨path.toList, h, String.ofList_toList⟩

/-- What is left behind the base path is what the router without one looks at. -/
theorem requestPath_withBase_nil (h : r.requestPath url = some path) :
    (r.withBase "").requestPath path = some path := by
  rw [requestPath_eq_some_iff] at h ⊢
  exact ⟨withoutQuery_of_append h.1, .inl rfl⟩

variable [Regex.SizeLimit]

/-- A request is answered, and noted, from the path alone. -/
theorem matchRequest_eq_of_requestPath (hroutes : r.routes = r'.routes)
    (hmatcher : r.matcher = r'.matcher) (h : r.requestPath url = some path)
    (h' : r'.requestPath url' = some path) (request : String) :
    r.matchRequest url request = r'.matchRequest url' request := by
  unfold matchRequest
  rw [h, h', hroutes, hmatcher]

theorem matchRequest_of_requestPath_eq_none (h : r.requestPath url = none)
    (request : String) (s : Session) : (r.matchRequest url request s).1 = none := by
  unfold matchRequest
  rw [h]
  rfl

end Router

/-- Whatever a router was before, and in whatever session it is asked: it
generates the URL that it would generate without a base path, with the base path
before it, and fails with the same error; it answers a URL whose path is the
base path and a rest that begins a segment as the router without a base path
answers the rest, and no other URL is matched; and it answers URLs alike that
agree before their first question mark. -/
theorem withBase_transparent [Regex.SizeLimit] {τ : Type} (r : Router τ) :
    (∀ {σ : Type} [ParamSource σ] (name : String) (params : σ),
      (∀ url, r.generate name params = .ok (r.base ++ url) ↔
        (r.withBase "").generate name params = .ok url) ∧
      (∀ url, r.generate name params = .ok url → ∃ rest, url = r.base ++ rest) ∧
      ∀ e, r.generate name params = .error e ↔
        (r.withBase "").generate name params = .error e) ∧
    (∀ (url request : String) (s : Session),
      (∀ rest : String, withoutQuery url.toList = r.base.toList ++ rest.toList →
        AtBoundary r.base.toList rest.toList →
          r.matchRequest url request s = (r.withBase "").matchRequest rest request s) ∧
      ((∀ rest : String, withoutQuery url.toList = r.base.toList ++ rest.toList →
        ¬ AtBoundary r.base.toList rest.toList) → (r.matchRequest url request s).1 = none)) ∧
    ∀ (url url' request : String) (s : Session),
      withoutQuery url.toList = withoutQuery url'.toList →
        (r.matchRequest url request s).1 = (r.matchRequest url' request s).1 := by
  refine ⟨?_, ?_, ?_⟩
  · intro σ _ name params
    rw [Router.generate_eq_map]
    cases (r.withBase "").generate name params with
    | error e => simp [Except.map]
    | ok url => simp [Except.map, String.append_right_inj]
  · intro url request s
    constructor
    · intro rest hpath hboundary
      have hrest : r.requestPath url = some rest :=
        Router.requestPath_eq_some_iff.mpr ⟨hpath, hboundary⟩
      have hroutes : r.routes = (r.withBase "").routes := rfl
      rw [Router.matchRequest_eq_of_requestPath hroutes rfl hrest
        (Router.requestPath_withBase_nil hrest)]
    · intro houtside
      apply Router.matchRequest_of_requestPath_eq_none
      rw [Option.eq_none_iff_forall_ne_some]
      intro rest hrest
      obtain ⟨hpath, hboundary⟩ := Router.requestPath_eq_some_iff.mp hrest
      exact houtside rest hpath hboundary
  · intro url url' request s hquery
    have hpath : r.requestPath url' = r.requestPath url := by
      unfold Router.requestPath
      rw [hquery]
    cases h : r.requestPath url with
    | none =>
      rw [Router.matchRequest_of_requestPath_eq_none h,
        Router.matchRequest_of_requestPath_eq_none (hpath.trans h)]
    | some path =>
      rw [Router.matchRequest_eq_of_requestPath rfl rfl h (hpath.trans h)]

/-- Under the base path `/app`, a user is found and generated as without one,
and the last route, which takes every path, does not take `/application`. -/
theorem withBase_transparent_app :
    let user : Route String := ⟨"GET", "/users/[i:id]", "user", some "user"⟩
    let any : Route String := ⟨"GET", "*", "any", none⟩
    let r : Router String := ⟨[user, any], [("user", 0)], "/app", ⟨.builtIn, ⟨0, true⟩⟩⟩
    let s : Session := ⟨[[]], 0, []⟩
    let params : Params := ⟨[("id", "7")]⟩
    r.generate "user" params = .ok (r.base ++ "/users/7") ∧
      r.matchRequest "/app/users/7?tab=posts" "GET" s =
        (r.withBase "").matchRequest "/users/7" "GET" s ∧
      ((r.withBase "").matchRequest "/users/7" "GET" s).1 = some ⟨user, params⟩ ∧
      (r.matchRequest "/application" "GET" s).1 = none ∧
      (r.matchRequest "/app/a?b" "GET" s).1 = (r.matchRequest "/app/a?c?d" "GET" s).1 := by
  intro user any r s params
  obtain ⟨hgenerate, hmatch, hquery⟩ := withBase_transparent r
  have hurl : (r.withBase "").generate "user" params = .ok "/users/7" := by decide
  have hinside : withoutQuery "/app/users/7?tab=posts".toList =
      r.base.toList ++ "/users/7".toList := by decide
  have houtside : ∀ rest : String, withoutQuery "/application".toList =
      r.base.toList ++ rest.toList → ¬ AtBoundary r.base.toList rest.toList := by
    intro rest h
    have hpath : withoutQuery "/application".toList =
        r.base.toList ++ "lication".toList := by decide
    have hrest : "lication".toList = rest.toList := List.append_cancel_left (hpath.symm.trans h)
    rw [← hrest]
    unfold AtBoundary
    decide
  refine ⟨((hgenerate "user" params).1 _).mpr hurl, ?_, by decide +kernel, ?_, ?_⟩
  · exact (hmatch _ "GET" s).1 "/users/7" hinside (.inr (.inr (.inl rfl)))
  · exact (hmatch _ "GET" s).2 houtside
  · exact hquery _ _ "GET" s (by decide)

end UrlRouting
