import Mathlib.Data.Nat.Find
import UrlRouting.Proofs.Bytes
import UrlRouting.Proofs.Cache.Calls
import UrlRouting.Proofs.LiteralStart
import UrlRouting.Regex.ProgramSize

/-!
# What the scan of a literal beginning decides

The scan goes over template and path in step, character by character. It stops
where the pattern zone of the template begins, or before that at the first
character of the template that is neither a slash nor the character of the path
at the same place. A path that it turns away does not start with the text before
the first bracket, byte by byte, and so it is turned away in any case.

Main statement: `scanLiteral_decides`.
-/

namespace UrlRouting

/-- What opens a pattern zone stands at a place of a template: a bracket, a
parenthesis or a dot, or any character that a quantifier stands behind. -/
def OpensAt (template : List Char) (i : Nat) : Prop :=
  (∃ c ∈ template[i]?, c ∈ ['[', '(', '.']) ∨ ∃ c ∈ template[i + 1]?, c ∈ ['?', '+', '*', '{']

instance (template : List Char) (i : Nat) : Decidable (OpensAt template i) :=
  decidable_of_iff
    ((template[i]?).any (· ∈ ['[', '(', '.']) ∨ (template[i + 1]?).any (· ∈ ['?', '+', '*', '{']))
    (by simp only [Option.any_eq_true, decide_eq_true_eq]; exact Iff.rfl)

/-- The pattern zone of a template begins at a place: what opens it stands there, or the
template ends there, and nothing opens it before. -/
structure ZoneBegins (template : List Char) (n : Nat) : Prop where
  opens : OpensAt template n ∨ n = template.length
  closed : ∀ i < n, ¬ OpensAt template i

instance (template : List Char) (n : Nat) : Decidable (ZoneBegins template n) :=
  decidable_of_iff ((OpensAt template n ∨ n = template.length) ∧ ∀ i < n, ¬ OpensAt template i)
    ⟨fun h => ⟨h.1, h.2⟩, fun h => ⟨h.opens, h.closed⟩⟩

/-- The character of a template at a place is a slash, or that of the path at
this place. -/
def AgreesAt (template path : List Char) (i : Nat) : Prop :=
  template[i]? = some '/' ∨ template[i]? = path[i]?

instance (template path : List Char) (i : Nat) : Decidable (AgreesAt template path i) :=
  inferInstanceAs (Decidable (_ ∨ _))

/-- Before `n`, template and path do not agree, and `i` is the first such place. -/
structure DisagreesFirst (template path : List Char) (n i : Nat) : Prop where
  lt : i < n
  differs : ¬ AgreesAt template path i
  agrees : ∀ j < i, AgreesAt template path j

/-! ## The zone -/

section

variable {template path : List Char} {c : Char} {i n : Nat}

theorem opensAt_zero_iff :
    OpensAt (c :: template) 0 ↔ opensZone c template.head? = true := by
  unfold OpensAt opensZone
  rw [Bool.or_eq_true, List.contains_iff_mem, Option.any_eq_true, List.head?_eq_getElem?]
  simp

theorem opensAt_succ_iff : OpensAt (c :: template) (i + 1) ↔ OpensAt template i :=
  Iff.rfl

theorem OpensAt.lt_length (h : OpensAt template i) : i < template.length := by
  rcases h with ⟨c, hc, -⟩ | ⟨c, hc, -⟩
  · exact (List.getElem?_eq_some_iff.mp hc).1
  · have hnext := (List.getElem?_eq_some_iff.mp hc).1
    omega

theorem ZoneBegins.le_length (h : ZoneBegins template n) : n ≤ template.length := by
  rcases h.opens with hopens | hend
  · exact Nat.le_of_lt hopens.lt_length
  · exact Nat.le_of_eq hend

theorem ZoneBegins.unique {m : Nat} (h : ZoneBegins template n)
    (h' : ZoneBegins template m) :
    n = m := by
  have hnot : ∀ {a b : Nat}, ZoneBegins template a → ZoneBegins template b → ¬ a < b := by
    intro a b ha hb hlt
    have hb' := hb.le_length
    rcases ha.opens with hopens | hend
    · exact hb.closed a hlt hopens
    · omega
  have hlt := hnot h h'
  have hgt := hnot h' h
  omega

theorem ZoneBegins.cons (h : ZoneBegins template n)
    (hclosed : ¬ OpensAt (c :: template) 0) :
    ZoneBegins (c :: template) (n + 1) where
  opens := by
    rcases h.opens with hopens | hend
    · exact .inl (opensAt_succ_iff.mpr hopens)
    · exact .inr (by rw [hend, List.length_cons])
  closed := by
    intro i hi
    cases i with
    | zero => exact hclosed
    | succ i => exact fun hopens => h.closed i (by omega) (opensAt_succ_iff.mp hopens)

theorem ZoneBegins.of_cons (h : ZoneBegins (c :: template) (n + 1)) :
    ¬ OpensAt (c :: template) 0 ∧ ZoneBegins template n := by
  refine ⟨h.closed 0 (Nat.succ_pos n), ?_, ?_⟩
  · rcases h.opens with hopens | hend
    · exact .inl (opensAt_succ_iff.mp hopens)
    · rw [List.length_cons] at hend
      exact .inr (by omega)
  · intro i hi hopens
    exact h.closed (i + 1) (by omega) (opensAt_succ_iff.mpr hopens)

/-- Every template has one place at which its pattern zone begins. -/
theorem existsUnique_zoneBegins (template : List Char) : ∃! n, ZoneBegins template n := by
  have hexists : ∃ n, ZoneBegins template n := by
    induction template with
    | nil => exact ⟨0, .inr rfl, fun i hi => absurd hi (Nat.not_lt_zero i)⟩
    | cons c template ih =>
      by_cases hopens : OpensAt (c :: template) 0
      · exact ⟨0, .inl hopens, fun i hi => absurd hi (Nat.not_lt_zero i)⟩
      · obtain ⟨n, hn⟩ := ih
        exact ⟨n + 1, hn.cons hopens⟩
  obtain ⟨n, hn⟩ := hexists
  exact ⟨n, hn, fun m hm => hm.unique hn⟩

/-! ## The walk -/

theorem agreesAt_zero_iff :
    AgreesAt (c :: template) path 0 ↔ c = '/' ∨ path.head? = some c := by
  unfold AgreesAt
  rw [List.getElem?_cons_zero, Option.some_inj, List.head?_eq_getElem?, eq_comm (a := some c)]

theorem agreesAt_succ_iff :
    AgreesAt (c :: template) path (i + 1) ↔ AgreesAt template path.tail i := by
  unfold AgreesAt
  rw [List.getElem?_cons_succ, List.getElem?_tail]

/-- Before the pattern zone, the scan goes on as long as template and path agree. -/
theorem scanFrom_cons (offset : Nat) (hclosed : ¬ OpensAt (c :: template) 0) :
    scanFrom offset (c :: template) path =
      if AgreesAt (c :: template) path 0 then scanFrom (offset + c.utf8Size) template path.tail
      else .mismatch offset := by
  rw [opensAt_zero_iff] at hclosed
  rw [scanFrom, if_neg hclosed]
  by_cases hagrees : AgreesAt (c :: template) path 0
  · rw [if_pos hagrees, if_neg]
    rintro ⟨hslash, hchar⟩
    rcases agreesAt_zero_iff.mp hagrees with heq | heq
    · exact hslash heq
    · exact hchar heq
  · rw [if_neg hagrees, if_pos]
    rw [agreesAt_zero_iff, not_or] at hagrees
    exact hagrees

theorem scanFrom_of_agrees (offset : Nat) (hzone : ZoneBegins template n)
    (h : ∀ i < n, AgreesAt template path i) :
    scanFrom offset template path = .compatible (offset + byteCount (template.take n)) := by
  induction template generalizing path n offset with
  | nil => rw [scanFrom, List.take_nil, byteCount_nil, Nat.add_zero]
  | cons c template ih =>
    cases n with
    | zero =>
      rcases hzone.opens with hopens | hend
      · rw [scanFrom, if_pos (opensAt_zero_iff.mp hopens), List.take_zero, byteCount_nil,
          Nat.add_zero]
      · cases hend
    | succ n =>
      obtain ⟨hclosed, hzone'⟩ := hzone.of_cons
      rw [scanFrom_cons offset hclosed, if_pos (h 0 (Nat.succ_pos n)), ih _ hzone' ?_,
        List.take_succ_cons, byteCount_cons, Nat.add_assoc]
      intro i hi
      exact agreesAt_succ_iff.mp (h (i + 1) (by omega))

theorem scanFrom_of_disagreesFirst (offset : Nat) (hzone : ZoneBegins template n)
    (h : DisagreesFirst template path n i) :
    scanFrom offset template path = .mismatch (offset + byteCount (template.take i)) := by
  induction template generalizing path n i offset with
  | nil =>
    have hlt := h.lt
    have hle : n ≤ 0 := hzone.le_length
    omega
  | cons c template ih =>
    cases n with
    | zero => exact absurd h.lt (Nat.not_lt_zero i)
    | succ n =>
      obtain ⟨hclosed, hzone'⟩ := hzone.of_cons
      rw [scanFrom_cons offset hclosed]
      cases i with
      | zero => rw [if_neg h.differs, List.take_zero, byteCount_nil, Nat.add_zero]
      | succ i =>
        have htail : DisagreesFirst template path.tail n i := by
          refine ⟨Nat.lt_of_succ_lt_succ h.lt, fun hagrees => ?_, fun j hj => ?_⟩
          · exact h.differs (agreesAt_succ_iff.mpr hagrees)
          · exact agreesAt_succ_iff.mp (h.agrees (j + 1) (by omega))
        rw [if_pos (h.agrees 0 (Nat.succ_pos i)), ih _ hzone' htail, List.take_succ_cons,
          byteCount_cons, Nat.add_assoc]

theorem exists_disagreesFirst (h : ¬ ∀ i < n, AgreesAt template path i) :
    ∃ i, DisagreesFirst template path n i := by
  have hexists : ∃ i, i < n ∧ ¬ AgreesAt template path i := by
    simpa only [not_forall, exists_prop] using h
  obtain ⟨hlt, hdiffers⟩ := Nat.find_spec hexists
  refine ⟨Nat.find hexists, hlt, hdiffers, fun j hj => ?_⟩
  by_contra hnot
  exact Nat.find_min hexists hj ⟨Nat.lt_trans hj hlt, hnot⟩

/-- A path that starts with the text before the first bracket is not turned away. -/
theorem not_literalStart_prefix_of_mismatch {offset : Nat} (hbracket : '[' ∈ template)
    (h : scanLiteral template path = .mismatch offset) :
    ¬ encoded (literalStart template) <+: encoded path := by
  intro hbytes
  obtain ⟨length, hscan⟩ :=
    scanLiteral_of_literalStart_prefix hbracket (encoded_prefix_iff.mp hbytes)
  rw [hscan] at h
  cases h

end

/-! ## Matching without the scan -/

/-- Whether a route accepts a request, when the literal beginning of its
template is only compared and not scanned. -/
def Matcher.matchRouteUnscanned [Regex.SizeLimit] (m : Matcher)
    (methods template path request : String) :
    Action (Except RouteError (Option Params)) := do
  if !allowsMethod methods request then return .ok none
  else if template = wildcard then return .ok (some .empty)
  else if isRaw template then m.runPattern template path
  else if !hasBracket template then
    return .ok (if template = path then some .empty else none)
  else if (literalStart template.toList).isPrefixOf path.toList then m.runPattern template path
  else return .ok none

/-- Two sessions that differ in their logs at most. -/
structure Session.SameButLog (s s' : Session) : Prop where
  storages : s.storages = s'.storages
  numbered : s.numbered = s'.numbered

/-- From sessions that differ in their logs at most, two actions give the same
answer and leave such sessions again. -/
def Alike {α : Type} (x y : Action α) : Prop :=
  ∀ s s', s.SameButLog s' → (x s).1 = (y s').1 ∧ (x s).2.SameButLog (y s').2

section Rules

variable {α β : Type}

theorem alike_pure (a : α) : Alike (pure a) (pure a) :=
  fun _ _ h => ⟨rfl, h⟩

theorem Alike.bind {x y : Action α} {f g : α → Action β} (hx : Alike x y)
    (hf : ∀ a, Alike (f a) (g a)) : Alike (x >>= f) (y >>= g) := by
  intro s s' h
  obtain ⟨hanswer, hsession⟩ := hx s s' h
  have hsame : (y >>= g) s' = g (x s).1 (y s').2 := by
    rw [hanswer]
    rfl
  rw [hsame]
  exact hf (x s).1 (x s).2 (y s').2 hsession

/-- Events go to the log and nowhere else. -/
theorem alike_note (event : Event) : Alike (note event) (pure ()) :=
  fun _ _ h => ⟨rfl, h.storages, h.numbered⟩

end Rules

/-! No action of a matcher looks at the log. -/

theorem Matcher.alike_compile [Regex.SizeLimit] (m : Matcher) (template : String) :
    Alike (m.compile template) (m.compile template) := by
  intro s s' h
  have hstorage : s'.storage m.cache.storage = s.storage m.cache.storage := by
    unfold Session.storage
    rw [h.storages]
  rw [m.compile_eq, m.compile_eq, ← Cache.bound?_congr h.storages template]
  cases m.cache.bound? template s with
  | some pattern => exact ⟨rfl, h⟩
  | none =>
    cases compileTemplate m.types template with
    | error e => exact ⟨rfl, h.storages, h.numbered⟩
    | ok compiled =>
      dsimp only
      unfold Cache.retain
      rw [hstorage, h.storages, h.numbered]
      cases m.cache.enabled with
      | true => exact ⟨rfl, rfl, rfl⟩
      | false => exact ⟨rfl, rfl, rfl⟩

theorem Matcher.alike_runPattern [Regex.SizeLimit] (m : Matcher)
    (template path : String) :
    Alike (m.runPattern template path) (m.runPattern template path) := by
  unfold Matcher.runPattern
  refine (m.alike_compile template).bind fun answer => ?_
  cases answer with
  | error e => exact alike_pure _
  | ok pattern => exact alike_pure _

/-- What the scan turns away is turned away without it, and only the log shows the
difference. -/
theorem Matcher.alike_matchRoute [Regex.SizeLimit] (m : Matcher)
    (methods template path request : String) :
    Alike (m.matchRoute methods template path request)
      (m.matchRouteUnscanned methods template path request) := by
  unfold Matcher.matchRoute Matcher.matchRouteUnscanned
  split
  · exact alike_pure _
  split
  · exact alike_pure _
  split
  · exact m.alike_runPattern template path
  split
  · exact alike_pure _
  · next hb =>
    have hbracket : '[' ∈ template.toList := by simpa [hasBracket] using hb
    split
    · next offset hscan =>
      have hbegins : ¬ (literalStart template.toList).isPrefixOf path.toList = true := by
        intro hbegins
        have hprefix := List.isPrefixOf_iff_prefix.mp hbegins
        exact not_literalStart_prefix_of_mismatch hbracket hscan (encoded_prefix_iff.mpr hprefix)
      rw [if_neg hbegins]
      exact (alike_note _).bind fun _ => alike_pure _
    · split
      · exact m.alike_runPattern template path
      · exact alike_pure _

/-- The pattern zone of every template begins at one place. The scan reports the
bytes before that place exactly if all characters of the template before it are
slashes or those of the path at the same places, and otherwise the byte offset
of the first one that is neither. If it turns a path away, the path does not
start with the text before the first bracket; so without the scan every request
gets the same answer and leaves the same session, but for the log. -/
theorem scanLiteral_decides [Regex.SizeLimit] (template path : String) :
    (∃! n, ZoneBegins template.toList n) ∧
    (∀ n, ZoneBegins template.toList n →
      (scanLiteral template.toList path.toList =
          .compatible (byteCount (template.toList.take n)) ↔
        ∀ i < n, AgreesAt template.toList path.toList i) ∧
      ((¬ ∀ i < n, AgreesAt template.toList path.toList i) →
        ∃ i, DisagreesFirst template.toList path.toList n i ∧
          scanLiteral template.toList path.toList =
            .mismatch (byteCount (template.toList.take i)))) ∧
    (hasBracket template = true → ∀ offset,
      scanLiteral template.toList path.toList = .mismatch offset →
        ¬ encoded (literalStart template.toList) <+: encoded path.toList) ∧
    ∀ (m : Matcher) (methods request : String),
      Alike (m.matchRoute methods template path request)
        (m.matchRouteUnscanned methods template path request) := by
  refine ⟨existsUnique_zoneBegins _, fun n hzone => ?_, fun hbracket offset hscan => ?_,
    fun m methods request => m.alike_matchRoute methods template path request⟩
  · have hfails : (¬ ∀ i < n, AgreesAt template.toList path.toList i) →
        ∃ i, DisagreesFirst template.toList path.toList n i ∧
          scanLiteral template.toList path.toList =
            .mismatch (byteCount (template.toList.take i)) := by
      intro hnot
      obtain ⟨i, hfirst⟩ := exists_disagreesFirst hnot
      refine ⟨i, hfirst, ?_⟩
      rw [scanLiteral, scanFrom_of_disagreesFirst 0 hzone hfirst, Nat.zero_add]
    refine ⟨⟨fun hscan => ?_, fun hagrees => ?_⟩, hfails⟩
    · by_contra hnot
      obtain ⟨i, -, hmismatch⟩ := hfails hnot
      rw [hmismatch] at hscan
      cases hscan
    · rw [scanLiteral, scanFrom_of_agrees 0 hzone hagrees, Nat.zero_add]
  · exact not_literalStart_prefix_of_mismatch (by simpa [hasBracket] using hbracket) hscan

/-- A path of other characters at the slashes, and one that ends before the
pattern zone. -/
theorem scanLiteral_decides_multibyte :
    let template := "/é/x.[:b]".toList
    ZoneBegins template 4 ∧ scanLiteral template "日é日x".toList = .compatible 5 ∧
      (∃ i, DisagreesFirst template "/é/".toList 4 i ∧
        scanLiteral template "/é/".toList = .mismatch (byteCount (template.take i))) ∧
      ¬ encoded (literalStart template) <+: encoded "/é/".toList := by
  intro template
  have hzone : ZoneBegins template 4 := by decide +kernel
  have hagrees : ∀ i < 4, AgreesAt template "日é日x".toList i := by decide +kernel
  have hdiffers : ¬ ∀ i < 4, AgreesAt template "/é/".toList i := by decide +kernel
  obtain ⟨-, hscan, -, -⟩ := scanLiteral_decides "/é/x.[:b]" "日é日x"
  obtain ⟨-, hshort, hrefused, -⟩ := scanLiteral_decides "/é/x.[:b]" "/é/"
  refine ⟨hzone, (hscan 4 hzone).1.mpr hagrees, (hshort 4 hzone).2 hdiffers, ?_⟩
  exact hrefused (by decide) 4 (by decide)

end UrlRouting
