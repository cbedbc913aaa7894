import UrlRouting.Matcher

/-!
# A call of a cache

A call looks into the storage twice: before the pattern is built, and when it
has been built, since building may have used the same cache. Compiling a
template does not use it, so a template that is not bound is compiled, and bound
if the cache is enabled.

Main statements: `Cache.getOrCompile_eq`, `Matcher.compile_eq`.
-/

namespace UrlRouting

/-! ## Calls -/

/-- The object that a call for a key finds. -/
def Cache.bound? (c : Cache) (key : String) (s : Session) : Option SharedPattern :=
  if c.enabled then (s.storage c.storage).lookup key else none

namespace Cache

variable {c : Cache} {key : String} {s s' : Session} {pattern : SharedPattern}
  {compiled : CompiledPattern} {e : RouteError} {x : Action (Except RouteError CompiledPattern)}

theorem bound?_of_enabled (henabled : c.enabled = true) (key : String) (s : Session) :
    c.bound? key s = (s.storage c.storage).lookup key := by
  unfold bound?
  rw [if_pos henabled]

theorem enabled_of_bound (h : c.bound? key s = some pattern) : c.enabled = true := by
  cases henabled : c.enabled with
  | true => rfl
  | false =>
    unfold bound? at h
    rw [henabled] at h
    cases h

theorem bound?_congr (h : s'.storages = s.storages) (key : String) :
    c.bound? key s' = c.bound? key s := by
  unfold bound? Session.storage
  rw [h]

/-- What a call comes to when its pattern is built: an object that was bound
meanwhile is returned, and otherwise the new one, which an enabled cache
binds. -/
def settle (c : Cache) (key : String) (compiled : CompiledPattern) (s : Session) :
    Except RouteError SharedPattern × Session :=
  let numbered := { s with numbered := s.numbered + 1 }
  match c.bound? key s with
  | some pattern => (.ok pattern, numbered)
  | none =>
    (.ok ⟨s.numbered, compiled⟩,
      if c.enabled then
        ⟨s.storages.set c.storage ((key, ⟨s.numbered, compiled⟩) :: s.storage c.storage),
          s.numbered + 1,
          .patternCached key compiled.text ((s.storage c.storage).length + 1) :: s.log⟩
      else numbered)

/-- A call looks for its key before building and, if that succeeds, in the session that
building has left. -/
theorem getOrCompile_eq (c : Cache) (key : String)
    (x : Action (Except RouteError CompiledPattern)) (s : Session) :
    c.getOrCompile key x s =
      match c.bound? key s with
      | some pattern => (.ok pattern, s)
      | none =>
        match x s with
        | (.error e, s') => (.error e, s')
        | (.ok compiled, s') => c.settle key compiled s' := by
  have hentries : ∀ s, c.entries s = (s.storage c.storage, s) := fun _ => rfl
  unfold getOrCompile settle bound?
  cases henabled : c.enabled with
  | false =>
    simp only [Bool.not_false, if_true, Bool.false_eq_true, if_false, Bind.bind, StateT.bind]
    generalize x s = built
    obtain ⟨answer, s'⟩ := built
    cases answer with
    | error e => rfl
    | ok compiled => rfl
  | true =>
    simp only [Bool.not_true, Bool.false_eq_true, if_false, if_true, Bind.bind, StateT.bind,
      hentries]
    cases (s.storage c.storage).lookup key with
    | some pattern => rfl
    | none =>
      simp only [StateT.bind]
      generalize x s = built
      obtain ⟨answer, s'⟩ := built
      cases answer with
      | error e => rfl
      | ok compiled =>
        dsimp only
        show (match (s'.storage c.storage).lookup key with
          | some pattern => _
          | none => _ : Action _) _ = _
        cases (s'.storage c.storage).lookup key with
        | some pattern => rfl
        | none => rfl

/-- A key that is bound: nothing is built, and the session stays as it is. -/
theorem getOrCompile_of_bound (h : c.bound? key s = some pattern)
    (x : Action (Except RouteError CompiledPattern)) :
    c.getOrCompile key x s = (.ok pattern, s) := by
  rw [getOrCompile_eq, h]

/-- A failure leaves the session that building has left. -/
theorem getOrCompile_of_error (hfree : c.bound? key s = none)
    (hx : x s = (.error e, s')) :
    c.getOrCompile key x s = (.error e, s') := by
  rw [getOrCompile_eq, hfree, hx]

theorem getOrCompile_of_ok (hfree : c.bound? key s = none)
    (hx : x s = (.ok compiled, s')) :
    c.getOrCompile key x s = c.settle key compiled s' := by
  rw [getOrCompile_eq, hfree, hx]

theorem fst_settle (c : Cache) (key : String) (compiled : CompiledPattern) (s : Session) :
    (c.settle key compiled s).1 = .ok ((c.bound? key s).getD ⟨s.numbered, compiled⟩) := by
  unfold settle
  cases c.bound? key s with
  | some pattern => rfl
  | none => rfl

theorem settle_of_disabled (hdisabled : c.enabled = false) :
    c.settle key compiled s =
      (.ok ⟨s.numbered, compiled⟩, { s with numbered := s.numbered + 1 }) := by
  unfold settle bound?
  rw [hdisabled]
  rfl

/-- The session behind a new pattern: it has got its number, and an enabled
cache binds it. -/
def retain (c : Cache) (key : String) (compiled : CompiledPattern) (s : Session) :
    Session :=
  if c.enabled then
    ⟨s.storages.set c.storage ((key, ⟨s.numbered, compiled⟩) :: s.storage c.storage),
      s.numbered + 1, .patternCached key compiled.text ((s.storage c.storage).length + 1) :: s.log⟩
  else { s with numbered := s.numbered + 1 }

theorem settle_of_free (hfree : c.bound? key s = none) :
    c.settle key compiled s = (.ok ⟨s.numbered, compiled⟩, c.retain key compiled s) := by
  unfold settle
  rw [hfree]
  rfl

end Cache

/-! ## Compiling -/

/-- The event of an error. -/
def RouteError.noted : RouteError → List Event
  | .invalidPattern template text _ => [.patternRefused template text]
  | _ => []

theorem compileNoted_eq [Regex.SizeLimit] (types : MatchTypes) (template : String)
    (s : Session) :
    compileNoted types template s = match compileTemplate types template with
      | .ok compiled => (.ok compiled, s)
      | .error e => (.error e, { s with log := e.noted ++ s.log }) := by
  unfold compileNoted
  cases compileTemplate types template with
  | ok compiled => rfl
  | error e =>
    cases e with
    | invalidPattern => rfl
    | _ => rfl

/-- A matcher compiles a template that is not bound in its cache. -/
theorem Matcher.compile_eq [Regex.SizeLimit] (m : Matcher) (template : String)
    (s : Session) :
    m.compile template s = match m.cache.bound? template s with
      | some pattern => (.ok pattern, s)
      | none =>
        match compileTemplate m.types template with
        | .ok compiled => (.ok ⟨s.numbered, compiled⟩, m.cache.retain template compiled s)
        | .error e => (.error e, { s with log := e.noted ++ s.log }) := by
  unfold Matcher.compile
  rw [Cache.getOrCompile_eq, compileNoted_eq]
  cases hbound : m.cache.bound? template s with
  | some pattern => rfl
  | none =>
    cases compileTemplate m.types template with
    | ok compiled => exact Cache.settle_of_free hbound
    | error e => rfl

end UrlRouting
