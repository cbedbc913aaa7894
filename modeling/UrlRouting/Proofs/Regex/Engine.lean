import UrlRouting.Proofs.Regex.Numbering
import UrlRouting.Proofs.Regex.Preference

/-!
# The laws of the engine

What is taken over from the engine for regular expressions, gathered in one
place: which texts it accepts, which names of groups and which sizes it refuses,
how it numbers groups, and which match it finds. The reader and the search obey
these laws, and they are the only ones that do, so that whatever is shown about
them holds for every engine that obeys the laws.

Main statements: `engineLaws` and `EngineLaws.unique`.
-/

namespace UrlRouting.Regex

/-! ## The search as the first way -/

theorem Rounds.keeps {step : Nat → Nat → Prop} (P : Nat → Prop)
    (hstep : ∀ i j, step i j → P i → P j) {n i j : Nat} (h : Rounds step n i j)
    (hi : P i) :
    P j := by
  induction n generalizing i with
  | zero => exact h ▸ hi
  | succ n ih =>
    obtain ⟨k, hk, hrest⟩ := h
    exact ih hrest (hstep i k hk hi)

/-- No way leads out of the text. -/
theorem Plan.Reaches.le_length {e : Pattern} {text : List Char} {i j : Nat}
    (h : (e.on text).Reaches i j) (hi : i ≤ text.length) : j ≤ text.length := by
  induction e generalizing i j with
  | empty => exact h ▸ hi
  | take cls =>
    obtain ⟨hleaf, rfl⟩ := h
    change Positions.has (charPositions cls.contains text) i = true at hleaf
    rw [has_charPositions] at hleaf
    obtain ⟨c, hget, -⟩ := (Option.any_eq_true _ _).mp hleaf
    exact (List.getElem?_eq_some_iff.mp hget).1
  | test look => exact h.2 ▸ hi
  | group number name inner ih => exact ih h hi
  | seq a b iha ihb =>
    obtain ⟨k, ha, hb⟩ := h
    exact ihb hb (iha ha hi)
  | alt a b iha ihb =>
    rcases h with h | h
    · exact iha h hi
    · exact ihb h hi
  | loop min max greedy body ih =>
    cases max with
    | none =>
      obtain ⟨n, -, hrounds⟩ := h
      exact hrounds.keeps (· ≤ text.length) (fun _ _ => ih) hi
    | some max =>
      obtain ⟨n, -, -, hrounds⟩ := h
      exact hrounds.keeps (· ≤ text.length) (fun _ _ => ih) hi

theorem find?_eq_head? {α : Type} {l : List α} {p : α → Bool} (h : ∀ a ∈ l, p a = true) :
    l.find? p = l.head? := by
  cases l with
  | nil => rfl
  | cons a rest => exact List.find?_cons_of_pos (h a List.mem_cons_self)

/-- The search tries the positions from left to right, and at each the ways through the
expression in the order of preference. -/
theorem search_eq_findSome? (e : Pattern) (text : List Char) :
    Pattern.search e text = (List.range (text.length + 1)).findSome? fun start =>
      ((e.on text).outcomes (text.length + 1) ⟨start, []⟩).head?.map fun last =>
        ⟨start, last.position, last.marks⟩ := by
  have hends : (Positions.upTo text.length).Before (text.length + 1) := by
    intro i hi
    rw [Positions.has_upTo, decide_eq_true_eq] at hi
    exact Nat.lt_succ_of_le hi
  unfold Pattern.search
  refine (findSome?_of_ite _ fun start hstart => ?_).symm
  have hfirst := Plan.goesFirst (text.length + 1) (e.on text) _ hends ⟨start, []⟩
  rw [find?_eq_head? fun t ht => ?_] at hfirst
  · rw [hfirst]
    split <;> rfl
  · have hle := (Plan.way_of_mem_outcomes ht).reaches.le_length
      (Nat.le_of_lt_succ (List.mem_range.mp hstart))
    rw [Positions.has_upTo, decide_eq_true hle]

/-- A second round does not come back to where the first one left `a*?`, so `a`
takes both. -/
example :
    let a : Pattern := .group 1 (some "a") (.loop 0 none false (.take (.single 'a')))
    let b : Pattern := .group 2 (some "b") (.loop 0 (some 1) true (.take (.single 'b')))
    let rounds : Pattern := .loop 0 none true (.seq a b)
    (Pattern.search (Expr.concat [.test .textStart, rounds, .test .textEnd])
      ['a', 'a']).bind (·.group? 1) = some (0, 2) := by
  cbv

/-! ## The laws -/

/-- What is taken over from the engine that reads regular expressions and
searches texts for them. -/
structure EngineLaws [SizeLimit] (read : List Char → Option Pattern)
    (search : Pattern → List Char → Option Match) : Prop where
  /-- Accepted is what can be read token by token, each of which may stand where
  it stands, closes all its groups, is not nested too deeply and stays within
  the size limit. -/
  accepts (text : List Char) (e : Pattern) : read text = some e ↔
    ∃ r, readTokens Reading.start text = some r ∧ r.outer = [] ∧
      r.level.body.depth ≤ nestingLimit ∧ e.WithinLimit ∧ r.level.body.expr = e
  /-- A text with two groups of one name is refused. -/
  distinct {text : List Char} {e : Pattern} (h : read text = some e) :
    (e.groups.filterMap CaptureGroup.name).Nodup
  /-- Groups are numbered in the order in which they begin. -/
  numbered {text : List Char} {e : Pattern} (h : read text = some e) :
    (e.groups.map CaptureGroup.number).Pairwise (· < ·)
  /-- An expression over the size limit is refused. -/
  withinLimit {text : List Char} {e : Pattern} (h : read text = some e) : e.WithinLimit
  /-- A match is found in a text that has a piece that the expression takes, and
  in no other. -/
  finds (e : Pattern) (text : List Char) : (search e text).isSome = true ↔
    ∃ i j, i ≤ text.length ∧ (e.on text).Reaches i j
  /-- A match is a way through the expression, with the marks of the groups on it. -/
  way {e : Pattern} {text : List Char} {m : Match} (h : search e text = some m) :
    (e.on text).Way ⟨m.start, []⟩ ⟨m.stop, m.marks⟩ ∧ m.stop ≤ text.length
  /-- Of all matches the leftmost ones are preferred, and of these the first
  one: an earlier alternative before a later one, another round of a greedy loop
  before its end, the end of a lazy loop before another round. -/
  leftmostFirst (e : Pattern) (text : List Char) :
    search e text = (List.range (text.length + 1)).findSome? fun start =>
      ((e.on text).outcomes (text.length + 1) ⟨start, []⟩).head?.map fun last =>
        ⟨start, last.position, last.marks⟩

/-- The reader and the search obey the laws of the engine. -/
theorem engineLaws [SizeLimit] : EngineLaws Pattern.ofText? Pattern.search where
  accepts text e := by
    rw [Pattern.ofText?, Option.bind_eq_some_iff]
    exact exists_congr fun r => and_congr_right fun _ => Reading.finish_eq_some_iff
  distinct h := (numbered_of_ofText? h).2
  numbered h := (numbered_of_ofText? h).1
  withinLimit h := by
    obtain ⟨r, -, hfinish⟩ := Option.bind_eq_some_iff.mp h
    exact (Reading.finish_eq_some_iff.mp hfinish).2.2.1
  finds e text := by
    rw [Pattern.search, Option.isSome_map, List.find?_isSome]
    constructor
    · rintro ⟨i, hi, hstarts⟩
      obtain ⟨j, hreach, -⟩ := (Plan.has_starts _ _ _).mp hstarts
      exact ⟨i, j, Nat.le_of_lt_succ (List.mem_range.mp hi), hreach⟩
    · rintro ⟨i, j, hi, hreach⟩
      have hend : (Positions.upTo text.length).has j = true := by
        rw [Positions.has_upTo, decide_eq_true (hreach.le_length hi)]
      exact ⟨i, List.mem_range.mpr (Nat.lt_succ_of_le hi),
        (Plan.has_starts _ _ _).mpr ⟨j, hreach, hend⟩⟩
  way := way_of_search
  leftmostFirst := search_eq_findSome?

/-- The laws leave nothing open. -/
theorem EngineLaws.unique [SizeLimit] {read read' : List Char → Option Pattern}
    {search search' : Pattern → List Char → Option Match} (h : EngineLaws read search)
    (h' : EngineLaws read' search') : read = read' ∧ search = search' := by
  constructor
  · funext text
    exact Option.ext fun e => (h.accepts text e).trans (h'.accepts text e).symm
  · funext e text
    exact (h.leftmostFirst e text).trans (h'.leftmostFirst e text).symm

end UrlRouting.Regex
