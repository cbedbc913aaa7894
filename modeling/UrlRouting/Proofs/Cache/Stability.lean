import UrlRouting.Proofs.Cache.Returns
import UrlRouting.Regex.ProgramSize

/-!
# What stays bound in a cache

Building a pattern may use the cache that the pattern is for, under the same key
as well, and may fail after that. The returns of all calls are put in order of
time, those of the calls that building makes before that of the call it is for.
Then the storage of an enabled cache is at every time the ledger of the returns
so far: each key with the object of its first success since the last clear.

Main statement: `cache_stable`.
-/

namespace UrlRouting

/-! ## Uses of a cache -/

/-- What is done with a cache, by whoever has it or a clone of it: calls in
order, each one chosen by what came back from those before it, and an answer in
the end. A pattern is built by such a use again. -/
inductive CacheUse where
  | done (answer : Except RouteError CompiledPattern)
  | getOrCompile (key : String) (build : CacheUse)
    (next : Except RouteError SharedPattern → CacheUse)
  | compile (types : MatchTypes) (template : String)
    (next : Except RouteError SharedPattern → CacheUse)
  | clear (next : CacheUse)
  | size (next : Nat → CacheUse)

/-- Returns in order, each with the session it leaves. -/
abbrev CacheHistory := List (CacheReturn × Session)

namespace CacheUse

def run [Regex.SizeLimit] (c : Cache) :
    CacheUse → Action (Except RouteError CompiledPattern)
  | done answer => return answer
  | getOrCompile key build next => do
    let answer ← c.getOrCompile key (build.run c)
    (next answer).run c
  | compile types template next => do
    let answer ← Matcher.compile ⟨types, c⟩ template
    (next answer).run c
  | clear next => do
    c.clear
    next.run c
  | size next => do
    let size ← c.size
    (next size).run c

/-- The returns of all calls. Building comes before the return of the call it is
for, unless that call finds its key bound. -/
def returns [Regex.SizeLimit] (c : Cache) : CacheUse → Session → CacheHistory
  | done _, _ => []
  | getOrCompile key build next, s =>
    let building := match c.bound? key s with
      | some _ => []
      | none => build.returns c s
    let called := c.getOrCompile key (build.run c) s
    building ++ (.answered key called.1, called.2) :: (next called.1).returns c called.2
  | compile types template next, s =>
    let called := Matcher.compile ⟨types, c⟩ template s
    (.answered template called.1, called.2) :: (next called.1).returns c called.2
  | clear next, s =>
    let called := c.clear s
    (.cleared, called.2) :: next.returns c called.2
  | size next, s =>
    let called := c.size s
    (.measured called.1, called.2) :: (next called.1).returns c called.2

end CacheUse

/-! ## The ledger of a history -/

namespace CacheHistory

/-- The session that a history leaves. -/
def last (start : Session) (history : CacheHistory) : Session :=
  history.foldl (fun _ entry => entry.2) start

/-- Each key that was bound since the last clear, with the object it was bound to. -/
def ledger (history : CacheHistory) : Storage :=
  history.foldl (fun held entry => entry.1.enter held) []

theorem last_append (start : Session) (before after : CacheHistory) :
    last start (before ++ after) = last (last start before) after :=
  List.foldl_append ..

/-- A key is in the ledger if there is a success for it with no clear behind it. -/
theorem mem_ledger_iff {history : CacheHistory} {key : String} :
    key ∈ (ledger history).map (·.1) ↔ ∃ before pattern s' after,
      history = before ++ (.answered key (.ok pattern), s') :: after ∧
        ∀ entry ∈ after, entry.1 ≠ .cleared := by
  -- what was held before the history is held until a clear
  have hheld : ∀ held : Storage,
      key ∈ (history.foldl (fun held entry => entry.1.enter held) held).map (·.1) ↔
        (∃ before pattern s' after,
          history = before ++ (.answered key (.ok pattern), s') :: after ∧
            ∀ entry ∈ after, entry.1 ≠ .cleared) ∨
        (key ∈ held.map (·.1) ∧ ∀ entry ∈ history, entry.1 ≠ .cleared) := by
    induction history with
    | nil => simp
    | cons entry rest ih =>
      intro held
      obtain ⟨ret, s'⟩ := entry
      rw [List.foldl_cons, ih, CacheReturn.mem_enter_iff, List.forall_mem_cons]
      constructor
      · rintro (⟨before, pattern, s, after, rfl, hafter⟩ | ⟨⟨pattern, rfl⟩ | ⟨hmem, hret⟩, hrest⟩)
        · exact .inl ⟨_ :: before, pattern, s, after, rfl, hafter⟩
        · exact .inl ⟨[], pattern, s', rest, rfl, hrest⟩
        · exact .inr ⟨hmem, hret, hrest⟩
      · rintro (⟨before, pattern, s, after, hsplit, hafter⟩ | ⟨hmem, hret, hrest⟩)
        · rcases List.cons_eq_append_iff.mp hsplit with ⟨-, hfirst⟩ | ⟨before', -, hrest⟩
          · obtain ⟨hentry, rfl⟩ := List.cons.inj hfirst
            exact .inr ⟨.inl ⟨pattern, (congrArg Prod.fst hentry).symm⟩, hafter⟩
          · exact .inl ⟨before', pattern, s, after, hrest, hafter⟩
        · exact .inr ⟨.inr ⟨hmem, hret⟩, hrest⟩
  rw [ledger, hheld]
  simp

/-- A history of an enabled cache in which what is bound stays bound until it is
cleared. -/
structure Stable (c : Cache) (start : Session) (history : CacheHistory) : Prop where
  /-- At every time the storage is the ledger of the returns so far, with
  distinct keys and distinct objects, and its size is how many there are. -/
  held : ∀ before after, history = before ++ after →
    let now := last start before
    now.storage c.storage = ledger before ∧ ((ledger before).map (·.1)).Nodup ∧
      ((ledger before).map (·.2.number)).Nodup ∧ (c.size now).1 = (ledger before).length
  /-- The keys that are bound are those with a success since the last clear. -/
  keys : ∀ before after, history = before ++ after →
    ∀ key, key ∈ (last start before).keys c.storage ↔
      ∃ older pattern s' newer, before = older ++ (.answered key (.ok pattern), s') :: newer ∧
        ∀ entry ∈ newer, entry.1 ≠ .cleared
  /-- Until the next clear a key stays bound to its object, and every success
  for it returns this object. -/
  kept : ∀ before between after, history = before ++ between ++ after →
    (∀ entry ∈ between, entry.1 ≠ .cleared) →
    ∀ key pattern, c.bound? key (last start before) = some pattern →
      c.bound? key (last start (before ++ between)) = some pattern ∧
      ∀ other s', (.answered key (.ok other), s') ∈ between → other = pattern
  /-- A success returns the object that its key is bound to when it returns. -/
  success : ∀ key pattern s', (.answered key (.ok pattern), s') ∈ history →
    c.bound? key s' = some pattern
  /-- A failure binds nothing behind the returns that building its pattern made. -/
  failure : ∀ before key e s' after, history = before ++ (.answered key (.error e), s') :: after →
    s'.storages = (last start before).storages
  size_eq : ∀ before n s' after, history = before ++ (.measured n, s') :: after →
    n = (ledger before).length
  /-- A binding is written to the log with the size before it plus one, a clear with the
  size before it, and nothing else is. -/
  log : ∀ before ret s' after, history = before ++ (ret, s') :: after →
    s'.cacheLog = ret.events (ledger before) ++ (last start before).cacheLog

end CacheHistory

/-! ## Runs -/

/-- A history that a cache makes step by step. -/
inductive Cache.Steps (c : Cache) : Session → CacheHistory → Prop
  | nil {s : Session} : Steps c s []
  | cons {s s' : Session} {ret : CacheReturn} {rest : CacheHistory} (hstep : c.Step s ret s')
    (hrest : Steps c s' rest) : Steps c s ((ret, s') :: rest)

namespace Cache.Steps

variable {c : Cache} {start : Session} {history before after : CacheHistory}

theorem append_iff :
    c.Steps start (before ++ after) ↔
      c.Steps start before ∧ c.Steps (CacheHistory.last start before) after := by
  induction before generalizing start with
  | nil => exact ⟨fun h => ⟨.nil, h⟩, fun h => h.2⟩
  | cons entry before ih =>
    obtain ⟨ret, s'⟩ := entry
    constructor
    · intro h
      cases h with
      | cons hstep hrest =>
        obtain ⟨hbefore, hafter⟩ := ih.mp hrest
        exact ⟨.cons hstep hbefore, hafter⟩
    · rintro ⟨hbefore, hafter⟩
      cases hbefore with
      | cons hstep hrest => exact .cons hstep (ih.mpr ⟨hrest, hafter⟩)

theorem step_of_split {ret : CacheReturn} {s' : Session}
    (h : c.Steps start (before ++ (ret, s') :: after)) :
    c.Step (CacheHistory.last start before) ret s' := by
  obtain ⟨-, hafter⟩ := append_iff.mp h
  cases hafter with
  | cons hstep => exact hstep

/-- What each step keeps, a history keeps. -/
theorem keep {P : Session → Prop} (hstep : ∀ s ret s', c.Step s ret s' → P s → P s')
    (h : c.Steps start history) (hstart : P start) :
    P (CacheHistory.last start history) := by
  induction h with
  | nil => exact hstart
  | cons hfirst _ ih => exact ih (hstep _ _ _ hfirst hstart)

theorem length_eq (h : c.Steps start history) :
    (CacheHistory.last start history).storages.length = start.storages.length :=
  h.keep (P := fun s => s.storages.length = start.storages.length)
    (fun _ _ _ hstep hs => hstep.length_eq.trans hs) rfl

theorem storage_eq (henabled : c.enabled = true) (hlt : c.storage < start.storages.length)
    (h : c.Steps start history) :
    (CacheHistory.last start history).storage c.storage =
      history.foldl (fun held entry => entry.1.enter held) (start.storage c.storage) := by
  induction h with
  | nil => rfl
  | cons hstep _ ih =>
    rw [List.foldl_cons, ← hstep.storage_eq henabled hlt]
    exact ih (hstep.length_eq ▸ hlt)

theorem distinct (henabled : c.enabled = true) (hlt : c.storage < start.storages.length)
    (h : c.Steps start history) (hstart : start.Distinct c.storage) :
    (CacheHistory.last start history).Distinct c.storage := by
  have hkeep := h.keep
    (P := fun s => c.storage < s.storages.length ∧ s.Distinct c.storage)
    (fun _ _ _ hstep hs => ⟨hstep.length_eq ▸ hs.1, hstep.distinct henabled hs.1 hs.2⟩)
    ⟨hlt, hstart⟩
  exact hkeep.2

/-- Without a clear, a key stays bound to its object, and every success for it
returns this object. -/
theorem bound_kept {key : String} {pattern : SharedPattern}
    (hlt : c.storage < start.storages.length) (h : c.Steps start history)
    (hclear : ∀ entry ∈ history, entry.1 ≠ .cleared)
    (hbound : c.bound? key start = some pattern) :
    c.bound? key (CacheHistory.last start history) = some pattern ∧
      ∀ other s', (.answered key (.ok other), s') ∈ history → other = pattern := by
  induction h with
  | nil => exact ⟨hbound, nofun⟩
  | cons hstep _ ih =>
    obtain ⟨hret, hrest⟩ := List.forall_mem_cons.mp hclear
    have henabled := Cache.enabled_of_bound hbound
    obtain ⟨hlast, hlater⟩ :=
      ih (hstep.length_eq ▸ hlt) hrest (hstep.bound_kept hlt hret hbound)
    refine ⟨hlast, fun other s' hmem => ?_⟩
    rcases List.mem_cons.mp hmem with heq | hmem
    · cases heq
      exact (hstep.bound_of_success henabled hlt).2 pattern hbound
    · exact hlater other s' hmem

/-- A history that an enabled cache makes with nothing in it at first is stable. -/
theorem stable (henabled : c.enabled = true) (hlt : c.storage < start.storages.length)
    (hempty : start.storage c.storage = []) (h : c.Steps start history) :
    history.Stable c start := by
  have hlt' : ∀ {before after : CacheHistory}, history = before ++ after →
      c.storage < (CacheHistory.last start before).storages.length := by
    intro before after hsplit
    rw [hsplit] at h
    rw [(append_iff.mp h).1.length_eq]
    exact hlt
  have hledger : ∀ {before after : CacheHistory}, history = before ++ after →
      (CacheHistory.last start before).storage c.storage = before.ledger := by
    intro before after hsplit
    rw [hsplit] at h
    rw [(append_iff.mp h).1.storage_eq henabled hlt, hempty]
    rfl
  have hstep : ∀ {before ret s' after}, history = before ++ (ret, s') :: after →
      c.Step (CacheHistory.last start before) ret s' := fun hsplit => (hsplit ▸ h).step_of_split
  constructor
  · intro before after hsplit now
    have hdistinct : now.Distinct c.storage :=
      (append_iff.mp (hsplit ▸ h)).1.distinct henabled hlt (Session.distinct_of_empty hempty)
    have hnow : now.storage c.storage = before.ledger := hledger hsplit
    rw [← hnow]
    exact ⟨rfl, hdistinct.keys, hdistinct.objects, rfl⟩
  · intro before after hsplit key
    unfold Session.keys
    rw [hledger hsplit]
    exact CacheHistory.mem_ledger_iff
  · intro before between after hsplit hclear key pattern hbound
    have hsteps := (append_iff.mp (append_iff.mp (hsplit ▸ h)).1).2
    rw [List.append_assoc] at hsplit
    have hkept := hsteps.bound_kept (hlt' hsplit) hclear hbound
    rw [CacheHistory.last_append]
    exact hkept
  · intro key pattern s' hmem
    obtain ⟨before, after, hsplit⟩ := List.append_of_mem hmem
    exact ((hstep hsplit).bound_of_success henabled (hlt' hsplit)).1
  · intro before key e s' after hsplit
    cases hstep hsplit with
    | failed hstorages => exact hstorages
  · intro before n s' after hsplit
    rw [← hledger hsplit]
    cases hstep hsplit with
    | measured => rfl
  · intro before ret s' after hsplit
    rw [← hledger hsplit]
    exact (hstep hsplit).cacheLog_eq henabled

end Cache.Steps

/-- The returns of a use are steps from the session it starts in to the one it
leaves. -/
theorem CacheUse.steps_returns [Regex.SizeLimit] (c : Cache) (use : CacheUse)
    (s : Session) :
    c.Steps s (use.returns c s) ∧
      CacheHistory.last s (use.returns c s) = (use.run c s).2 := by
  induction use generalizing s with
  | done answer => exact ⟨.nil, rfl⟩
  | getOrCompile key build next ihbuild ihnext =>
    let called := c.getOrCompile key (build.run c) s
    let building : CacheHistory := match c.bound? key s with
      | some _ => []
      | none => build.returns c s
    obtain ⟨hnext, hlast⟩ := ihnext called.1 called.2
    show c.Steps s (building ++ (.answered key called.1, called.2) :: _) ∧
      CacheHistory.last s (building ++ (.answered key called.1, called.2) :: _) = _
    rw [Cache.Steps.append_iff, CacheHistory.last_append]
    cases hbound : c.bound? key s with
    | some pattern =>
      have hbuilding : building = [] := by simp only [building, hbound]
      have hcalled : called = (.ok pattern, s) := Cache.getOrCompile_of_bound hbound _
      have hstep : c.Step s (.answered key called.1) called.2 := by
        rw [hcalled]
        exact .found hbound rfl (Nat.le_refl _) rfl
      rw [hbuilding]
      exact ⟨⟨.nil, .cons hstep hnext⟩, hlast⟩
    | none =>
      have hbuilding : building = build.returns c s := by simp only [building, hbound]
      obtain ⟨hbuild, hbuilt⟩ := ihbuild s
      have hstep : c.Step (build.run c s).2 (.answered key called.1) called.2 :=
        Cache.step_getOrCompile hbound _
      rw [hbuilding, hbuilt]
      exact ⟨⟨hbuild, .cons hstep hnext⟩, hlast⟩
  | compile types template next ih =>
    obtain ⟨hnext, hlast⟩ := ih _ (Matcher.compile ⟨types, c⟩ template s).2
    exact ⟨.cons (Cache.step_compile types template s) hnext, hlast⟩
  | clear next ih =>
    obtain ⟨hnext, hlast⟩ := ih (c.clear s).2
    exact ⟨.cons .cleared hnext, hlast⟩
  | size next ih =>
    obtain ⟨hnext, hlast⟩ := ih (c.size s).1 s
    exact ⟨.cons .measured hnext, hlast⟩

/-- Whatever is done with a new cache, with calls that building makes at any
depth: if the cache is enabled, its history is stable, and if it is disabled,
its storage stays empty. In every session, a call whose key is bound builds
nothing and leaves the session as it is, a call that fails leaves the session in
which building has failed, and a call that builds a pattern returns an object
with it, unless the key has been bound meanwhile. -/
theorem cache_stable [Regex.SizeLimit] (enabled : Bool) (use : CacheUse) (s : Session) :
    let c := (Cache.create enabled s).1
    let start := (Cache.create enabled s).2
    let history := use.returns c start
    CacheHistory.last start history = (use.run c start).2 ∧
    (enabled = true → history.Stable c start) ∧
    (enabled = false → ∀ before after, history = before ++ after →
      let now := CacheHistory.last start before
      now.storage c.storage = [] ∧ (c.size now).1 = 0) ∧
    ∀ (key : String) (build : Action (Except RouteError CompiledPattern)) (now : Session),
      (∀ pattern, c.bound? key now = some pattern →
        c.getOrCompile key build now = (.ok pattern, now)) ∧
      (∀ e later, c.bound? key now = none → build now = (.error e, later) →
        c.getOrCompile key build now = (.error e, later)) ∧
      (∀ compiled later, c.bound? key now = none → build now = (.ok compiled, later) →
        (c.getOrCompile key build now).1 =
          .ok ((c.bound? key later).getD ⟨later.numbered, compiled⟩)) ∧
      (enabled = false → (c.getOrCompile key build now).2.storages = (build now).2.storages) := by
  intro c start history
  have hlt : c.storage < start.storages.length := by
    show s.storages.length < (s.storages ++ [[]]).length
    simp
  have hempty : start.storage c.storage = [] := by
    show ((s.storages ++ [[]])[s.storages.length]?).getD [] = []
    simp
  obtain ⟨hsteps, hlast⟩ := use.steps_returns c start
  refine ⟨hlast, fun henabled => hsteps.stable henabled hlt hempty, ?_, fun key build now => ?_⟩
  · intro hdisabled before after hsplit now
    have hsteps' : c.Steps start (before ++ after) := by
      rw [← hsplit]
      exact hsteps
    have hbefore : c.Steps start before := (Cache.Steps.append_iff.mp hsteps').1
    have hnow : now.storage c.storage = [] :=
      hbefore.keep (P := fun s => s.storage c.storage = [])
        (fun _ _ _ hstep => hstep.storage_of_disabled hdisabled) hempty
    exact ⟨hnow, congrArg List.length hnow⟩
  · refine ⟨fun pattern hbound => Cache.getOrCompile_of_bound hbound build,
      fun e later hfree hfailed => Cache.getOrCompile_of_error hfree hfailed,
      fun compiled later hfree hbuilt => ?_, fun hdisabled => ?_⟩
    · rw [Cache.getOrCompile_of_ok hfree hbuilt, Cache.fst_settle]
    · have hfree : c.bound? key now = none := if_neg (Bool.eq_false_iff.mp hdisabled)
      generalize hbuilt : build now = built
      obtain ⟨answer, later⟩ := built
      cases answer with
      | error e => rw [Cache.getOrCompile_of_error hfree hbuilt]
      | ok compiled =>
        rw [Cache.getOrCompile_of_ok hfree hbuilt, Cache.settle_of_disabled hdisabled]

/-- While a pattern is built for a key, a call made by building binds the key to
another one. Both calls return that one, and so does the next, in which building
would fail. -/
theorem cache_stable_nested :
    let key := "/users/[i:id]"
    let failing : CacheUse := .done (.error (.unknownName "user"))
    let use : CacheUse :=
      .getOrCompile key
        (.compile .builtIn key fun _ => .done (compileTemplate .builtIn "/posts/[i:id]"))
        fun _ => .getOrCompile key failing fun _ => .clear failing
    let c := (Cache.create true .start).1
    let start := (Cache.create true .start).2
    let history := use.returns c start
    history.Stable c start ∧
      (history.filterMap fun entry => match entry.1 with
        | .answered _ (.ok pattern) => some (pattern.number, pattern.compiled.template)
        | _ => none) = [(0, key), (0, key), (0, key)] ∧
      (CacheHistory.last start history).numbered = 2 ∧ history.ledger.isEmpty = true := by
  intro key failing use c start history
  obtain ⟨-, hstable, -⟩ := cache_stable true use .start
  exact ⟨hstable rfl, by decide +kernel, by decide +kernel, by decide +kernel⟩

end UrlRouting
