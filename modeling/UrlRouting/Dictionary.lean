/-!
# Dictionaries in key order

A dictionary keeps its entries sorted by key, one entry per key. Keys are
compared by code point, which is also the byte order of their UTF-8 forms. The
last value inserted under a key is the one that is found, and a dictionary is
told by its entries alone, however it was filled.
-/

namespace UrlRouting

/-- Whether the keys of entries increase. -/
def IncreasingKeys (entries : List (String × String)) : Prop :=
  entries.Pairwise fun a b => a.1 < b.1

/-- Texts under text keys, in increasing key order. -/
structure Dictionary where
  entries : List (String × String)
  increasing : IncreasingKeys entries
deriving DecidableEq, Repr

namespace Dictionary

def empty : Dictionary := ⟨[], List.Pairwise.nil⟩

/-- Puts an entry in its place in a sorted list, over one with the same key. -/
def insertEntry (key value : String) : List (String × String) → List (String × String)
  | [] => [(key, value)]
  | entry :: rest =>
    if key < entry.1 then (key, value) :: entry :: rest
    else if key = entry.1 then (key, value) :: rest
    else entry :: insertEntry key value rest

theorem mem_insertEntry {key value : String} {entry : String × String} :
    ∀ {entries : List (String × String)},
      entry ∈ insertEntry key value entries → entry = (key, value) ∨ entry ∈ entries
  | [], h => by simpa [insertEntry] using h
  | other :: rest, h => by
    unfold insertEntry at h
    split at h
    · simpa using h
    · split at h
      · rcases List.mem_cons.1 h with h | h
        · exact Or.inl h
        · exact Or.inr (List.mem_cons_of_mem _ h)
      · rcases List.mem_cons.1 h with h | h
        · exact Or.inr (h ▸ List.mem_cons_self)
        · exact (mem_insertEntry h).imp_right (List.mem_cons_of_mem _)

theorem increasing_insertEntry (key value : String) :
    ∀ {entries : List (String × String)},
      IncreasingKeys entries → IncreasingKeys (insertEntry key value entries)
  | [], _ => List.pairwise_singleton _ _
  | other :: rest, h => by
    obtain ⟨before, sorted⟩ := List.pairwise_cons.1 h
    unfold insertEntry
    split
    · next lt =>
      refine List.pairwise_cons.2 ⟨fun entry mem => ?_, h⟩
      rcases List.mem_cons.1 mem with rfl | mem
      · exact lt
      · exact String.lt_trans lt (before entry mem)
    · next notLt =>
      split
      · next eq =>
        subst eq
        exact List.pairwise_cons.2 ⟨before, sorted⟩
      · next ne =>
        have lt : other.1 < key :=
          String.not_le.1 fun le => ne (String.le_antisymm le (String.not_lt.1 notLt))
        refine List.pairwise_cons.2 ⟨fun entry mem => ?_, increasing_insertEntry key value sorted⟩
        rcases mem_insertEntry mem with rfl | mem
        · exact lt
        · exact before entry mem

def insert (d : Dictionary) (key value : String) : Dictionary :=
  ⟨insertEntry key value d.entries, increasing_insertEntry key value d.increasing⟩

/-- Inserts the pairs in order, so that the last of equal keys wins. -/
def extend (d : Dictionary) (pairs : List (String × String)) : Dictionary :=
  pairs.foldl (fun d (key, value) => d.insert key value) d

def ofList (pairs : List (String × String)) : Dictionary :=
  empty.extend pairs

def get? (d : Dictionary) (key : String) : Option String :=
  d.entries.lookup key

def contains (d : Dictionary) (key : String) : Bool :=
  (d.get? key).isSome

def size (d : Dictionary) : Nat :=
  d.entries.length

theorem eq_of_entries {d e : Dictionary} (h : d.entries = e.entries) : d = e := by
  cases d
  cases e
  simp_all

@[simp] theorem extend_nil (d : Dictionary) : d.extend [] = d := rfl

@[simp] theorem extend_cons (d : Dictionary) (key value : String)
    (rest : List (String × String)) :
    d.extend ((key, value) :: rest) = (d.insert key value).extend rest := rfl

theorem lookup_insertEntry (key value wanted : String)
    (entries : List (String × String)) :
    (insertEntry key value entries).lookup wanted =
      if wanted = key then some value else entries.lookup wanted := by
  induction entries with
  | nil =>
    by_cases h : wanted = key
    · simp [insertEntry, h]
    · simp [insertEntry, List.lookup_cons, h, beq_eq_false_iff_ne.2 h]
  | cons entry rest ih =>
    obtain ⟨k, v⟩ := entry
    unfold insertEntry
    dsimp only
    split
    · by_cases h : wanted = key
      · simp [h]
      · simp [List.lookup_cons, h, beq_eq_false_iff_ne.2 h]
    · split
      · next heq =>
        subst heq
        by_cases h : wanted = key
        · simp [h]
        · simp [List.lookup_cons, h, beq_eq_false_iff_ne.2 h]
      · next hne =>
        by_cases h : wanted = k
        · subst h
          simp [Ne.symm hne]
        · simp [List.lookup_cons, ih, beq_eq_false_iff_ne.2 h]

@[simp] theorem get?_insert (d : Dictionary) (key value wanted : String) :
    (d.insert key value).get? wanted = if wanted = key then some value else d.get? wanted :=
  lookup_insertEntry key value wanted d.entries

/-- An entry whose key is beyond every other one goes to the end. -/
theorem insertEntry_of_lt {key value : String} {entries : List (String × String)}
    (beyond : ∀ entry ∈ entries, entry.1 < key) :
    insertEntry key value entries = entries ++ [(key, value)] := by
  induction entries with
  | nil => rfl
  | cons entry rest ih =>
    have lt : entry.1 < key := beyond entry List.mem_cons_self
    have ne : key ≠ entry.1 := fun h => String.lt_irrefl _ (h ▸ lt)
    rw [insertEntry, if_neg (String.lt_asymm lt), if_neg ne,
      ih fun other mem => beyond other (List.mem_cons_of_mem _ mem)]
    rfl

theorem entries_extend {d : Dictionary} {pairs : List (String × String)}
    (h : IncreasingKeys (d.entries ++ pairs)) :
    (d.extend pairs).entries = d.entries ++ pairs := by
  induction pairs generalizing d with
  | nil => simp
  | cons pair rest ih =>
    obtain ⟨key, value⟩ := pair
    have beyond : ∀ entry ∈ d.entries, entry.1 < key := fun entry mem =>
      (List.pairwise_append.1 h).2.2 entry mem (key, value) List.mem_cons_self
    have entries : (d.insert key value).entries = d.entries ++ [(key, value)] :=
      insertEntry_of_lt beyond
    rw [extend_cons, ih (by rw [entries]; simpa using h), entries]
    simp

/-- A dictionary is filled anew by its own entries. -/
@[simp] theorem ofList_entries (d : Dictionary) : ofList d.entries = d :=
  eq_of_entries (by
    rw [ofList, entries_extend (by simpa [empty] using d.increasing)]
    rfl)

end Dictionary

end UrlRouting
