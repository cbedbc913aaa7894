import UrlRouting.Proofs.Cache.Contents
import UrlRouting.Proofs.Registration

/-!
# What matching a route writes to the log

Matching a route writes one event at most: that its literal text rejects the
path, or else what compiling its template writes, which is that the pattern is
no expression or that it is now bound in the cache. An error is always one of
compiling, with its event.

Main statement: `Matcher.writes_matchRoute`.
-/

namespace UrlRouting

/-- What an action writes to the log, the last event first. -/
def Writes {α : Type} (x : Action α) (post : List Event → α → Prop) : Prop :=
  Leads x fun s answer s' => ∃ events, s'.log = events ++ s.log ∧ post events answer

section Writing

variable {α β : Type}

theorem writes_pure {a : α} {post : List Event → α → Prop} (h : post [] a) :
    Writes (pure a : Action α) post :=
  leads_pure fun _ => ⟨[], rfl, h⟩

theorem Writes.bind {x : Action α} {f : α → Action β} {mid : List Event → α → Prop}
    {post : List Event → β → Prop} (hx : Writes x mid)
    (hf : ∀ a, Writes (f a) fun more b => ∀ events, mid events a → post (more ++ events) b) :
    Writes (x >>= f) post := by
  refine Leads.bind hx fun a => (hf a).imp fun s' b s'' h s hmid => ?_
  obtain ⟨more, hmore, hpost⟩ := h
  obtain ⟨events, hevents, hmid⟩ := hmid
  exact ⟨more ++ events, by rw [hmore, hevents, List.append_assoc], hpost events hmid⟩

theorem Writes.imp {x : Action α} {post post' : List Event → α → Prop}
    (hx : Writes x post)
    (h : ∀ events a, post events a → post' events a) : Writes x post' :=
  Leads.imp hx fun _ _ _ ⟨events, hevents, hpost⟩ => ⟨events, hevents, h _ _ hpost⟩

theorem writes_note (event : Event) :
    Writes (note event) fun events _ => events = [event] :=
  fun _ => ⟨[event], rfl, rfl⟩

end Writing

variable [Regex.SizeLimit]

/-! ## Compiling -/

/-- What compiling a template writes: one event at most, of the compiler or of
the cache, and nothing but its error if it gives one. -/
structure CompileNoted {α : Type} (types : MatchTypes) (template : String)
    (events : List Event) (answer : Except RouteError α) : Prop where
  single : events.length ≤ 1
  own : ∀ event ∈ events, event.area = .compiler ∨ event.area = .cache
  refusal : ∀ e, answer = .error e → compileTemplate types template = .error e ∧ events = e.noted

namespace CompileNoted

variable {types : MatchTypes} {template : String} {events : List Event} {α β : Type}

/-- An error is passed on. -/
theorem error {e : RouteError}
    (h : CompileNoted types template events (.error e : Except _ α)) :
    CompileNoted types template events (.error e : Except _ β) :=
  ⟨h.single, h.own, fun e' he => h.refusal e' (congrArg Except.error (Except.error.inj he))⟩

theorem ok {a : α} {b : β}
    (h : CompileNoted types template events (.ok a : Except RouteError α)) :
    CompileNoted types template events (.ok b : Except RouteError β) :=
  ⟨h.single, h.own, nofun⟩

theorem nil {a : α} : CompileNoted types template [] (.ok a : Except RouteError α) :=
  ⟨Nat.zero_le 1, nofun, nofun⟩

end CompileNoted

namespace Matcher

theorem writes_compile (m : Matcher) (template : String) :
    Writes (m.compile template) (CompileNoted m.types template) := by
  intro s
  rw [m.compile_eq]
  cases hbound : m.cache.bound? template s with
  | some pattern => exact ⟨[], rfl, .nil⟩
  | none =>
    cases hcompile : compileTemplate m.types template with
    | error e =>
      have hrefusal : ∀ e', (.error e : Except RouteError SharedPattern) = .error e' →
          compileTemplate m.types template = .error e' ∧ e.noted = e'.noted := by
        rintro e' he
        obtain rfl := Except.error.inj he
        exact ⟨hcompile, rfl⟩
      refine ⟨e.noted, rfl, ?_, ?_, hrefusal⟩
      · cases e with
        | invalidPattern => exact Nat.le_refl 1
        | _ => exact Nat.zero_le 1
      · cases e with
        | invalidPattern => exact List.forall_mem_singleton.mpr (.inl rfl)
        | _ => nofun
    | ok compiled =>
      dsimp only
      unfold Cache.retain
      cases m.cache.enabled with
      | false => exact ⟨[], rfl, .nil⟩
      | true =>
        exact ⟨[_], rfl, Nat.le_refl 1, List.forall_mem_singleton.mpr (.inr rfl), nofun⟩

theorem writes_runPattern (m : Matcher) (template path : String) :
    Writes (m.runPattern template path) (CompileNoted m.types template) := by
  unfold runPattern
  refine (m.writes_compile template).bind fun answer => ?_
  cases answer with
  | error e => exact writes_pure fun events h => h.error
  | ok pattern => exact writes_pure fun events h => h.ok

end Matcher

/-! ## Matching a route -/

/-- The literal text of a template rejects the path of a request at an offset. -/
structure LiteralRejects (methods template path request : String) (offset : Nat) :
    Prop where
  allowed : allowsMethod methods request = true
  bracket : hasBracket template = true
  notRaw : isRaw template = false
  mismatch : scanLiteral template.toList path.toList = .mismatch offset

/-- What matching a route writes: one event at most and none of the router. It
is a rejection exactly if the literal text rejects the path. With an error, it
is the event of that error. -/
structure RouteNoted (types : MatchTypes) (methods template path request : String)
    (events : List Event) (answer : Except RouteError (Option Params)) : Prop where
  single : events.length ≤ 1
  own : ∀ event ∈ events, event.area ≠ .router
  rejected : ∀ event, event ∈ events ∧ event.area = .matcher ↔
    ∃ offset, LiteralRejects methods template path request offset ∧
      event = .literalRejected template path offset
  refusal : ∀ e, answer = .error e →
    needsPattern template = true ∧ compileTemplate types template = .error e ∧ events = e.noted

section Routes

variable {types : MatchTypes} {methods template path request : String} {events : List Event}
  {answer : Except RouteError (Option Params)}

theorem RouteNoted.noSkip (h : RouteNoted types methods template path request events answer)
    (skipped : String) : .routeSkipped skipped ∉ events :=
  fun hmem => h.own _ hmem rfl

/-- Where the literal text does not reject the path, only compiling writes anything. -/
theorem CompileNoted.routeNoted (h : CompileNoted types template events answer)
    (haccepts : ∀ offset, ¬ LiteralRejects methods template path request offset)
    (hneeds : needsPattern template = false → ∃ params, answer = .ok params) :
    RouteNoted types methods template path request events answer where
  single := h.single
  own := by
    intro event hmem
    rcases h.own event hmem with harea | harea
    · simp [harea]
    · simp [harea]
  rejected := by
    intro event
    constructor
    · rintro ⟨hmem, harea⟩
      rcases h.own event hmem with hown | hown
      · cases hown.symm.trans harea
      · cases hown.symm.trans harea
    · rintro ⟨offset, hrejects, -⟩
      exact absurd hrejects (haccepts offset)
  refusal := by
    intro e he
    refine ⟨?_, h.refusal e he⟩
    rw [← Bool.not_eq_false]
    intro hneedless
    obtain ⟨params, hok⟩ := hneeds hneedless
    cases he.symm.trans hok

/-- A rejection is the only event. -/
theorem routeNoted_rejected {offset : Nat}
    (h : LiteralRejects methods template path request offset) :
    RouteNoted types methods template path request [.literalRejected template path offset]
      (.ok none) where
  single := Nat.le_refl 1
  own := List.forall_mem_singleton.mpr nofun
  rejected := by
    intro event
    rw [List.mem_singleton]
    constructor
    · rintro ⟨rfl, -⟩
      exact ⟨offset, h, rfl⟩
    · rintro ⟨offset', h', rfl⟩
      obtain rfl : offset = offset' := by simpa using h.mismatch.symm.trans h'.mismatch
      exact ⟨rfl, rfl⟩
  refusal := nofun

end Routes

theorem Matcher.writes_matchRoute (m : Matcher) (methods template path request : String) :
    Writes (m.matchRoute methods template path request)
      (RouteNoted m.types methods template path request) := by
  have hpure : ∀ params : Option Params,
      (∀ offset, ¬ LiteralRejects methods template path request offset) →
        Writes (pure (.ok params)) (RouteNoted m.types methods template path request) :=
    fun params haccepts => writes_pure (CompileNoted.nil.routeNoted haccepts fun _ => ⟨params, rfl⟩)
  have hrun : (isRaw template || hasBracket template) = true →
      (∀ offset, ¬ LiteralRejects methods template path request offset) →
        Writes (m.runPattern template path) (RouteNoted m.types methods template path request) := by
    intro hneeds haccepts
    refine (m.writes_runPattern template path).imp fun events answer h => ?_
    refine h.routeNoted haccepts fun hneedless => ?_
    rw [needsPattern_eq, hneeds] at hneedless
    cases hneedless
  unfold matchRoute
  split
  · next hmethod => exact hpure _ fun _ h => by simp [h.allowed] at hmethod
  split
  · next hwildcard =>
    refine hpure _ fun _ h => ?_
    have hbracket := h.bracket
    rw [hwildcard] at hbracket
    exact absurd hbracket (by decide)
  split
  · next hraw =>
    exact hrun (by rw [hraw, Bool.true_or]) fun _ h => by simp [h.notRaw] at hraw
  split
  · next hbracket => exact hpure _ fun _ h => by simp [h.bracket] at hbracket
  · next hmethod _ hraw hbracket =>
    have hneeds : (isRaw template || hasBracket template) = true := by
      simpa using Or.inr hbracket
    split
    · next offset hscan =>
      have hrejects : LiteralRejects methods template path request offset :=
        ⟨by simpa using hmethod, by simpa using hbracket, by simpa using hraw, hscan⟩
      refine (writes_note _).bind fun _ => writes_pure ?_
      rintro _ rfl
      exact routeNoted_rejected hrejects
    · next hscan =>
      have haccepts : ∀ offset, ¬ LiteralRejects methods template path request offset := by
        intro offset h
        cases hscan.symm.trans h.mismatch
      split
      · exact hrun hneeds haccepts
      · exact hpure _ haccepts

end UrlRouting
