import UrlRouting.Proofs.Cache.Contents
import UrlRouting.Proofs.Cache.Faithful

/-!
# What comes back from a cache

What happens while a pattern is built are calls of their own. So a call does one
of six things in the moment in which it returns, and what is held, and what is
written to the log, follow what comes back.

Main statements: `Cache.step_getOrCompile`, `Cache.Step.storage_eq`.
-/

namespace UrlRouting

/-! ## Returns -/

/-- What comes back from a call of a cache. -/
inductive CacheReturn where
  | answered (key : String) (answer : Except RouteError SharedPattern)
  | cleared
  | measured (size : Nat)

/-- The events in the log that caches have written. -/
def Session.cacheLog (s : Session) : List Event :=
  s.log.filter (·.area = .cache)

namespace CacheReturn

/-- What is held after a return: an object under a key that was free is added. -/
def enter (held : Storage) : CacheReturn → Storage
  | answered key (.ok pattern) =>
    if (held.lookup key).isSome then held else (key, pattern) :: held
  | answered _ (.error _) => held
  | cleared => []
  | measured _ => held

/-- What a cache that holds something writes to the log up to a return. -/
def events (held : Storage) : CacheReturn → List Event
  | answered key (.ok pattern) =>
    if (held.lookup key).isSome then []
    else [.patternCached key pattern.compiled.text (held.length + 1)]
  | answered _ (.error _) => []
  | cleared => [.cacheCleared held.length]
  | measured _ => []

end CacheReturn

/-! ## From one return to the next -/

/-- What a cache does from one return to the next. -/
inductive Cache.Step (c : Cache) (s : Session) : CacheReturn → Session → Prop
  /-- An object was found, if not before the pattern was built, then afterwards. -/
  | found {key : String} {pattern : SharedPattern} {s' : Session}
    (hbound : c.bound? key s = some pattern) (hstorages : s'.storages = s.storages)
    (hnumbered : s.numbered ≤ s'.numbered) (hlog : s'.log = s.log) :
    Step c s (.answered key (.ok pattern)) s'
  | bound {key : String} {compiled : CompiledPattern} (henabled : c.enabled = true)
    (hfree : (s.storage c.storage).lookup key = none) :
    Step c s (.answered key (.ok ⟨s.numbered, compiled⟩))
      ⟨s.storages.set c.storage ((key, ⟨s.numbered, compiled⟩) :: s.storage c.storage),
        s.numbered + 1,
        .patternCached key compiled.text ((s.storage c.storage).length + 1) :: s.log⟩
  | unretained {key : String} {compiled : CompiledPattern} (hdisabled : c.enabled = false) :
    Step c s (.answered key (.ok ⟨s.numbered, compiled⟩)) { s with numbered := s.numbered + 1 }
  | failed {key : String} {e : RouteError} {s' : Session} (hstorages : s'.storages = s.storages)
    (hnumbered : s'.numbered = s.numbered) (hlog : s'.cacheLog = s.cacheLog) :
    Step c s (.answered key (.error e)) s'
  | cleared : Step c s .cleared
    ⟨s.storages.set c.storage [], s.numbered, .cacheCleared (s.storage c.storage).length :: s.log⟩
  | measured : Step c s (.measured (s.storage c.storage).length) s

namespace Cache

variable {c : Cache} {key : String} {s s' : Session} {pattern : SharedPattern}
  {compiled : CompiledPattern} {e : RouteError} {x : Action (Except RouteError CompiledPattern)}

theorem step_settle (c : Cache) (key : String) (compiled : CompiledPattern)
    (s : Session) :
    c.Step s (.answered key (c.settle key compiled s).1) (c.settle key compiled s).2 := by
  cases henabled : c.enabled with
  | false =>
    rw [settle_of_disabled henabled]
    exact .unretained henabled
  | true =>
    unfold settle
    rw [henabled]
    cases hbound : c.bound? key s with
    | some pattern => exact .found hbound rfl (Nat.le_succ _) rfl
    | none =>
      rw [bound?_of_enabled henabled] at hbound
      exact .bound henabled hbound

/-- A call that builds goes on from where building has ended. -/
theorem step_getOrCompile (hfree : c.bound? key s = none)
    (x : Action (Except RouteError CompiledPattern)) :
    c.Step (x s).2 (.answered key (c.getOrCompile key x s).1) (c.getOrCompile key x s).2 := by
  generalize hx : x s = built
  obtain ⟨answer, s'⟩ := built
  cases answer with
  | error e =>
    rw [getOrCompile_of_error hfree hx]
    exact .failed rfl rfl rfl
  | ok compiled =>
    rw [getOrCompile_of_ok hfree hx]
    exact c.step_settle key compiled s'

end Cache

/-! ## Compiling -/

/-- Compiling writes nothing about caches to the log, and binds nothing before
it returns. -/
theorem Cache.step_compile [Regex.SizeLimit] {c : Cache} (types : MatchTypes)
    (template : String) (s : Session) :
    let called := Matcher.compile ⟨types, c⟩ template s
    c.Step s (.answered template called.1) called.2 := by
  intro called
  have hcalled := Matcher.compile_eq ⟨types, c⟩ template s
  cases hbound : c.bound? template s with
  | some pattern =>
    rw [hbound] at hcalled
    rw [show called = _ from hcalled]
    exact .found hbound rfl (Nat.le_refl _) rfl
  | none =>
    rw [hbound] at hcalled
    cases hcompile : compileTemplate types template with
    | ok compiled =>
      rw [hcompile] at hcalled
      rw [show called = _ from hcalled.trans (Cache.settle_of_free hbound).symm]
      exact c.step_settle template compiled s
    | error e =>
      rw [hcompile] at hcalled
      rw [show called = _ from hcalled]
      refine .failed rfl rfl ?_
      unfold Session.cacheLog
      cases e with
      | invalidPattern => rfl
      | _ => rfl

/-! ## What a step keeps -/

namespace Session

variable {s s' : Session} {id : Nat}

theorem storage_congr (h : s'.storages = s.storages) (id : Nat) :
    s'.storage id = s.storage id := by
  unfold storage
  rw [h]

theorem storage_of_set {entries : Storage} (hlt : id < s.storages.length)
    (h : s'.storages = s.storages.set id entries) : s'.storage id = entries := by
  unfold storage
  rw [h, List.getElem?_set_self hlt]
  rfl

/-- The keys and the objects of a storage are distinct, and the next object is none of
them. -/
structure Distinct (s : Session) (id : Nat) : Prop where
  keys : ((s.storage id).map (·.1)).Nodup
  objects : ((s.storage id).map (·.2.number)).Nodup
  numbered : ∀ entry ∈ s.storage id, entry.2.number < s.numbered

theorem distinct_of_empty (h : s.storage id = []) : s.Distinct id := by
  refine ⟨?_, ?_, ?_⟩
  all_goals rw [h]
  · exact List.nodup_nil
  · exact List.nodup_nil
  · exact nofun

theorem Distinct.congr (hs : s.Distinct id) (h : s'.storages = s.storages)
    (hnumbered : s.numbered ≤ s'.numbered) : s'.Distinct id := by
  have hstorage := storage_congr h id
  refine ⟨?_, ?_, ?_⟩
  all_goals rw [hstorage]
  · exact hs.keys
  · exact hs.objects
  · exact fun entry hmem => Nat.lt_of_lt_of_le (hs.numbered entry hmem) hnumbered

theorem Distinct.cons {key : String} {compiled : CompiledPattern} (hs : s.Distinct id)
    (hlt : id < s.storages.length) (hfree : (s.storage id).lookup key = none)
    (h : s'.storages = s.storages.set id ((key, ⟨s.numbered, compiled⟩) :: s.storage id))
    (hnumbered : s'.numbered = s.numbered + 1) : s'.Distinct id := by
  have hstorage := storage_of_set hlt h
  refine ⟨?_, ?_, ?_⟩
  all_goals rw [hstorage]
  · rw [List.map_cons, List.nodup_cons]
    refine ⟨fun hmem => ?_, hs.keys⟩
    obtain ⟨pattern, hlook⟩ := exists_lookup_of_mem hmem
    rw [hfree] at hlook
    cases hlook
  · rw [List.map_cons, List.nodup_cons]
    refine ⟨fun hmem => ?_, hs.objects⟩
    obtain ⟨entry, hentry, hnumber⟩ := List.mem_map.mp hmem
    exact absurd hnumber (Nat.ne_of_lt (hs.numbered entry hentry))
  · rw [hnumbered, List.forall_mem_cons]
    exact ⟨Nat.lt_succ_self _, fun entry hmem => Nat.lt_succ_of_lt (hs.numbered entry hmem)⟩

end Session

/-- The keys that are held after a return. -/
theorem CacheReturn.mem_enter_iff {ret : CacheReturn} {held : Storage} {key : String} :
    key ∈ (ret.enter held).map (·.1) ↔
      (∃ pattern, ret = .answered key (.ok pattern)) ∨
        (key ∈ held.map (·.1) ∧ ret ≠ .cleared) := by
  cases ret with
  | cleared => simp [enter]
  | measured n => simp [enter]
  | answered other answer =>
    cases answer with
    | error e => simp [enter]
    | ok new =>
      have hadded : key ∈ ((CacheReturn.answered other (.ok new)).enter held).map (·.1) ↔
          key = other ∨ key ∈ held.map (·.1) := by
        by_cases hheld : (held.lookup other).isSome = true
        · rw [enter, if_pos hheld]
          obtain ⟨pattern, hlook⟩ := Option.isSome_iff_exists.mp hheld
          refine ⟨.inr, ?_⟩
          rintro (rfl | hmem)
          · exact mem_map_of_lookup hlook
          · exact hmem
        · rw [enter, if_neg hheld, List.map_cons, List.mem_cons]
      rw [hadded]
      simp [eq_comm]

/-- A return that is no clear takes nothing from what is held. -/
theorem CacheReturn.lookup_enter {ret : CacheReturn} {held : Storage} {key : String}
    {pattern : SharedPattern} (hret : ret ≠ .cleared)
    (h : held.lookup key = some pattern) :
    (ret.enter held).lookup key = some pattern := by
  cases ret with
  | cleared => exact absurd rfl hret
  | measured n => exact h
  | answered other answer =>
    cases answer with
    | error e => exact h
    | ok new =>
      by_cases hheld : (held.lookup other).isSome = true
      · rw [enter, if_pos hheld]
        exact h
      · have hne : (key == other) = false := by
          refine beq_false_of_ne ?_
          rintro rfl
          exact hheld (by rw [h]; rfl)
        rw [enter, if_neg hheld, List.lookup_cons, hne]
        exact h

namespace Cache.Step

variable {c : Cache} {s s' : Session} {ret : CacheReturn}

theorem length_eq (h : c.Step s ret s') : s'.storages.length = s.storages.length := by
  cases h with
  | found _ hstorages => rw [hstorages]
  | bound => exact List.length_set
  | unretained => rfl
  | failed hstorages => rw [hstorages]
  | cleared => exact List.length_set
  | measured => rfl

/-- The storage of an enabled cache follows the returns. -/
theorem storage_eq (henabled : c.enabled = true) (hlt : c.storage < s.storages.length)
    (h : c.Step s ret s') : s'.storage c.storage = ret.enter (s.storage c.storage) := by
  cases h with
  | found hbound hstorages =>
    rw [bound?_of_enabled henabled] at hbound
    rw [Session.storage_congr hstorages, CacheReturn.enter, hbound]
    rfl
  | bound _ hfree =>
    rw [CacheReturn.enter, hfree]
    exact Session.storage_of_set hlt rfl
  | unretained hdisabled => simp [henabled] at hdisabled
  | failed hstorages => exact Session.storage_congr hstorages _
  | cleared => exact Session.storage_of_set hlt rfl
  | measured => rfl

theorem cacheLog_eq (henabled : c.enabled = true) (h : c.Step s ret s') :
    s'.cacheLog = ret.events (s.storage c.storage) ++ s.cacheLog := by
  cases h with
  | found hbound _ _ hlog =>
    rw [bound?_of_enabled henabled] at hbound
    rw [CacheReturn.events, hbound]
    exact congrArg (List.filter _) hlog
  | bound _ hfree =>
    rw [CacheReturn.events, hfree]
    rfl
  | unretained hdisabled => simp [henabled] at hdisabled
  | failed _ _ hlog => exact hlog
  | cleared => rfl
  | measured => rfl

/-- A success returns what its key is bound to then, and was bound to before, if
it was. -/
theorem bound_of_success {key : String} {pattern : SharedPattern}
    (henabled : c.enabled = true)
    (hlt : c.storage < s.storages.length)
    (h : c.Step s (.answered key (.ok pattern)) s') :
    c.bound? key s' = some pattern ∧
      ∀ bound, c.bound? key s = some bound → pattern = bound := by
  cases h with
  | found hbound hstorages =>
    refine ⟨(bound?_congr hstorages key).trans hbound, fun bound hbound' => ?_⟩
    exact Option.some.inj (hbound.symm.trans hbound')
  | bound _ hfree =>
    rw [bound?_of_enabled henabled, bound?_of_enabled henabled, hfree,
      Session.storage_of_set hlt rfl]
    exact ⟨List.lookup_cons_self, nofun⟩
  | unretained hdisabled => simp [henabled] at hdisabled

theorem distinct (henabled : c.enabled = true) (hlt : c.storage < s.storages.length)
    (h : c.Step s ret s') (hs : s.Distinct c.storage) : s'.Distinct c.storage := by
  cases h with
  | found _ hstorages hnumbered => exact hs.congr hstorages hnumbered
  | bound _ hfree => exact hs.cons hlt hfree rfl rfl
  | unretained hdisabled => simp [henabled] at hdisabled
  | failed hstorages hnumbered => exact hs.congr hstorages (Nat.le_of_eq hnumbered.symm)
  | cleared => exact Session.distinct_of_empty (Session.storage_of_set hlt rfl)
  | measured => exact hs

/-- A key that is bound stays bound if the cache is not cleared. -/
theorem bound_kept {key : String} {pattern : SharedPattern}
    (hlt : c.storage < s.storages.length) (h : c.Step s ret s') (hret : ret ≠ .cleared)
    (hbound : c.bound? key s = some pattern) : c.bound? key s' = some pattern := by
  have henabled := enabled_of_bound hbound
  rw [bound?_of_enabled henabled] at hbound
  rw [bound?_of_enabled henabled, h.storage_eq henabled hlt]
  exact CacheReturn.lookup_enter hret hbound

/-- Nothing gets into the storage of a disabled cache. -/
theorem storage_of_disabled (hdisabled : c.enabled = false) (h : c.Step s ret s')
    (hs : s.storage c.storage = []) : s'.storage c.storage = [] := by
  cases h with
  | found _ hstorages => exact (Session.storage_congr hstorages _).trans hs
  | bound henabled => simp [hdisabled] at henabled
  | unretained => exact hs
  | failed hstorages => exact (Session.storage_congr hstorages _).trans hs
  | cleared =>
    have hcleared := Session.storage_withStorage s c.storage c.storage []
    rw [hs, ite_self] at hcleared
    exact hcleared
  | measured => exact hs

end Cache.Step

end UrlRouting
