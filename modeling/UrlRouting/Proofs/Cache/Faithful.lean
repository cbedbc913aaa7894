import UrlRouting.Proofs.Cache.Calls
import UrlRouting.Proofs.Direct
import UrlRouting.Proofs.LiteralStart

/-!
# Faithful storages

A storage is keyed by templates alone, while a template means what the table of a
matcher makes of it. A session is faithful when every storage of a family belongs
to one table of match types and holds only what compiling under that table gives.
The tables stand beside the storages, one for each; a storage of others has none,
and nothing is said about it.

Main statements: under a faithful session, compiling, preparing and matching answer
as they do without a cache, and leave the session faithful.
-/

namespace UrlRouting

/-- The tables to which the storages of a session belong, in the order of storages. -/
abbrev Owners := List (Option MatchTypes)

/-- The storage of a matcher belongs to the matcher's own table. -/
def Matcher.Owns (m : Matcher) (owners : Owners) : Prop :=
  owners[m.cache.storage]? = some (some m.types)

/-- A storage that was added later changes nothing for the matchers there were. -/
theorem Matcher.Owns.append {m : Matcher} {owners : Owners} (h : m.Owns owners)
    (more : Owners) : m.Owns (owners ++ more) := by
  unfold Matcher.Owns at h ⊢
  rw [List.getElem?_append_left]
  · exact h
  · exact (List.getElem?_eq_some_iff.mp h).1

theorem Session.storage_withStorage (s : Session) (id other : Nat) (entries : Storage) :
    (s.withStorage id entries).storage other =
      if id = other ∧ other < s.storages.length then entries else s.storage other := by
  unfold Session.storage Session.withStorage
  simp only [List.getElem?_set]
  by_cases hid : id = other
  · subst hid
    by_cases hlt : id < s.storages.length
    · simp [hlt]
    · simp [hlt]
  · simp [hid]

variable [Regex.SizeLimit]

/-- Every entry of a storage with an owner is what compiling under the owner gives. -/
structure Faithful (owners : Owners) (s : Session) : Prop where
  length_eq : owners.length = s.storages.length
  compiled : ∀ (id : Nat) (types : MatchTypes), owners[id]? = some (some types) →
    ∀ (key : String) (pattern : SharedPattern), (key, pattern) ∈ s.storage id →
      compileTemplate types key = .ok pattern.compiled

/-- From every faithful session, an action gives an answer with a property and leaves
the session faithful. -/
def Keeps {α : Type} (owners : Owners) (x : Action α) (post : α → Prop) : Prop :=
  ∀ s, Faithful owners s → post (x s).1 ∧ Faithful owners (x s).2

/-- A session in which nothing is known of the storages. -/
theorem faithful_unowned (s : Session) :
    Faithful (List.replicate s.storages.length none) s where
  length_eq := List.length_replicate
  compiled := by
    intro id types howner
    rw [List.getElem?_replicate] at howner
    split at howner <;> simp at howner

/-! ## Rules for actions -/

section Rules

variable {α β : Type} {owners : Owners}

theorem keeps_pure {a : α} {post : α → Prop} (h : post a) :
    Keeps owners (pure a : Action α) post :=
  fun _ hs => ⟨h, hs⟩

theorem Keeps.bind {x : Action α} {f : α → Action β} {mid : α → Prop} {post : β → Prop}
    (hx : Keeps owners x mid) (hf : ∀ a, mid a → Keeps owners (f a) post) :
    Keeps owners (x >>= f) post := by
  intro s hs
  obtain ⟨hmid, hs'⟩ := hx s hs
  exact hf (x s).1 hmid (x s).2 hs'

theorem Keeps.imp {x : Action α} {post post' : α → Prop} (hx : Keeps owners x post)
    (h : ∀ a, post a → post' a) : Keeps owners x post' := by
  intro s hs
  obtain ⟨hpost, hs'⟩ := hx s hs
  exact ⟨h _ hpost, hs'⟩

/-- An event says nothing about storages. -/
theorem keeps_note (event : Event) : Keeps owners (note event) fun _ => True :=
  fun _ hs => ⟨trivial, hs.length_eq, hs.compiled⟩

end Rules

/-! ## Storages -/

/-- A storage may be given any entries that its owner would compile. -/
theorem Faithful.withStorage {owners : Owners} {s : Session} (hs : Faithful owners s)
    {id : Nat} {entries : Storage}
    (h : ∀ types, owners[id]? = some (some types) → ∀ key pattern, (key, pattern) ∈ entries →
      compileTemplate types key = .ok pattern.compiled) :
    Faithful owners (s.withStorage id entries) where
  length_eq := by
    rw [hs.length_eq]
    exact List.length_set.symm
  compiled := by
    intro other types howner key pattern hmem
    rw [Session.storage_withStorage] at hmem
    split at hmem
    · next heq =>
      obtain ⟨rfl, -⟩ := heq
      exact h types howner key pattern hmem
    · exact hs.compiled other types howner key pattern hmem

/-- A new storage is empty, and so faithful to whatever table it is given. -/
theorem Faithful.create {owners : Owners} {s : Session} (hs : Faithful owners s)
    (enabled : Bool) (types : MatchTypes) :
    ((Cache.create enabled) s).1 = ⟨s.storages.length, enabled⟩ ∧
      Faithful (owners ++ [some types]) ((Cache.create enabled) s).2 := by
  refine ⟨rfl, ?_, ?_⟩
  · show (owners ++ [some types]).length = (s.storages ++ [[]]).length
    simp [hs.length_eq]
  · intro id table howner key pattern hmem
    change (key, pattern) ∈ ((s.storages ++ [[]])[id]?).getD [] at hmem
    rcases Nat.lt_or_ge id s.storages.length with hlt | hge
    · rw [List.getElem?_append_left (hs.length_eq ▸ hlt)] at howner
      rw [List.getElem?_append_left hlt] at hmem
      exact hs.compiled id table howner key pattern hmem
    · rw [List.getElem?_append_right hge] at hmem
      cases hat : id - s.storages.length with
      | zero => simp [hat] at hmem
      | succ n => simp [hat] at hmem

/-! ## Compiling -/

section Matchers

variable {owners : Owners} {m : Matcher}

/-- What an enabled cache has bound is right. -/
theorem Faithful.compiled_of_bound {s : Session} (hs : Faithful owners s)
    (hm : m.Owns owners) {template : String} {pattern : SharedPattern}
    (hbound : m.cache.bound? template s = some pattern) :
    compileTemplate m.types template = .ok pattern.compiled := by
  rw [Cache.bound?_of_enabled (Cache.enabled_of_bound hbound)] at hbound
  obtain ⟨before, after, heq, -⟩ := List.lookup_eq_some_iff.mp hbound
  apply hs.compiled _ m.types hm template pattern
  rw [heq]
  exact List.mem_append_right _ (List.mem_cons_self ..)

/-- A pattern may be bound by the matcher that has compiled it. -/
theorem Faithful.retain {s : Session} (hs : Faithful owners s) (hm : m.Owns owners)
    {template : String} {compiled : CompiledPattern}
    (hcompile : compileTemplate m.types template = .ok compiled) :
    Faithful owners (m.cache.retain template compiled s) := by
  unfold Cache.retain
  cases m.cache.enabled with
  | false => exact ⟨hs.length_eq, hs.compiled⟩
  | true =>
    have hbinds : Faithful owners (s.withStorage m.cache.storage
        ((template, ⟨s.numbered, compiled⟩) :: s.storage m.cache.storage)) := by
      apply hs.withStorage
      intro types howner key pattern hmem
      rcases List.mem_cons.mp hmem with heq | hmem
      · obtain rfl : m.types = types := by simpa [Matcher.Owns] using hm.symm.trans howner
        cases heq
        exact hcompile
      · exact hs.compiled _ types howner key pattern hmem
    exact ⟨hbinds.length_eq, hbinds.compiled⟩

/-- Compiling gives what it gives without a cache, also when the pattern comes out
of the storage. -/
theorem Matcher.keeps_compile (hm : m.Owns owners) (template : String) :
    Keeps owners (m.compile template) fun answer =>
      answer.map (·.compiled) = compileTemplate m.types template := by
  intro s hs
  rw [m.compile_eq]
  cases hbound : m.cache.bound? template s with
  | some pattern => exact ⟨(hs.compiled_of_bound hm hbound).symm, hs⟩
  | none =>
    cases hcompile : compileTemplate m.types template with
    | error e => exact ⟨rfl, hs.length_eq, hs.compiled⟩
    | ok compiled => exact ⟨rfl, hs.retain hm hcompile⟩

theorem Matcher.keeps_prepare (hm : m.Owns owners) (template : String) :
    Keeps owners (m.prepare template) (· = prepared m.types template) := by
  unfold Matcher.prepare prepared
  split
  · refine (Matcher.keeps_compile hm template).bind fun answer hanswer => ?_
    rw [← hanswer]
    cases answer with
    | error e => exact keeps_pure rfl
    | ok pattern => exact keeps_pure rfl
  · exact keeps_pure rfl

theorem Matcher.keeps_runPattern (hm : m.Owns owners) (template path : String) :
    Keeps owners (m.runPattern template path) (· = patternAnswer m.types template path) := by
  unfold Matcher.runPattern patternAnswer
  refine (Matcher.keeps_compile hm template).bind fun answer hanswer => ?_
  rw [← hanswer]
  cases answer with
  | error e => exact keeps_pure rfl
  | ok pattern => exact keeps_pure rfl

/-- Matching a route answers as it does without a cache and without the scan. -/
theorem Matcher.keeps_matchRoute (hm : m.Owns owners)
    (methods template path request : String) :
    Keeps owners (m.matchRoute methods template path request)
      (· = routeAnswer m.types methods template path request) := by
  unfold Matcher.matchRoute routeAnswer
  split
  · exact keeps_pure rfl
  · split
    · exact keeps_pure rfl
    · split
      · exact Matcher.keeps_runPattern hm template path
      · split
        · exact keeps_pure rfl
        · next hb =>
          have hbracket : '[' ∈ template.toList := by simpa [hasBracket] using hb
          split
          · next offset hscan =>
            -- what the scan refuses, the comparison refuses as well
            have hbegins : (literalStart template.toList).isPrefixOf path.toList = false := by
              apply Bool.eq_false_iff.mpr
              intro h
              obtain ⟨length, hok⟩ := scanLiteral_of_literalStart_prefix hbracket
                (List.isPrefixOf_iff_prefix.mp h)
              simp [hok] at hscan
            refine (keeps_note _).bind fun _ _ => keeps_pure ?_
            simp [hbegins]
          · split
            · exact Matcher.keeps_runPattern hm template path
            · exact keeps_pure rfl

end Matchers

end UrlRouting
