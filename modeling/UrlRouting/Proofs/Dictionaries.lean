import Mathlib.Data.List.Induction
import Mathlib.Data.List.Nodup
import UrlRouting.Params

/-!
# What dictionaries hold

Among pairs with repeated names the last one with a name has the value, and
whatever is filled by overwriting holds it. A dictionary has one entry for each
key, so it does not matter in which order its entries are searched or put into
another one, and two dictionaries in which the same is found are the same.
-/

namespace UrlRouting

/-! ## The last value of a name -/

section Lookup

variable {ν : Type}

/-- The last of several pairs with a name has a value. -/
def LastValue (pairs : List (String × ν)) (name : String) (value : ν) : Prop :=
  ∃ before after, pairs = before ++ (name, value) :: after ∧ ∀ pair ∈ after, pair.1 ≠ name

theorem lookupLast_eq_some_iff {pairs : List (String × ν)} {name : String} {value : ν} :
    lookupLast pairs name = some value ↔ LastValue pairs name value := by
  unfold lookupLast
  simp only [Option.map_eq_some_iff, List.find?_eq_some_iff_append]
  constructor
  · rintro ⟨⟨key, last⟩, ⟨hkey, after, before, hsplit, hafter⟩, rfl⟩
    obtain rfl : key = name := by simpa using hkey
    refine ⟨before.reverse, after.reverse, ?_, ?_⟩
    · rw [← List.reverse_inj, hsplit]
      simp
    · intro pair hmem
      simpa using hafter pair (List.mem_reverse.mp hmem)
  · rintro ⟨before, after, rfl, hafter⟩
    refine ⟨(name, value), ⟨by simp, after.reverse, before.reverse, by simp, ?_⟩, rfl⟩
    intro pair hmem
    simpa using hafter pair (List.mem_reverse.mp hmem)

/-- A pair at the end hides those of the same name before it. -/
theorem lookupLast_concat (pairs : List (String × ν)) (key : String) (value : ν)
    (name : String) :
    lookupLast (pairs ++ [(key, value)]) name =
      if name = key then some value else lookupLast pairs name := by
  unfold lookupLast
  rw [List.reverse_append, List.reverse_singleton, List.singleton_append]
  by_cases hname : name = key
  · simp [hname]
  · simp [hname, Ne.symm hname]

/-- What is filled by overwriting holds the last value of every name. -/
theorem get_foldl {γ : Type} {insert : γ → String → ν → γ} {get : γ → String → Option ν}
    (hinsert : ∀ c key value name,
      get (insert c key value) name = if name = key then some value else get c name)
    (c : γ) (pairs : List (String × ν)) (name : String) :
    get (pairs.foldl (fun c (key, value) => insert c key value) c) name =
      (lookupLast pairs name).or (get c name) := by
  induction pairs using List.reverseRecOn with
  | nil => rfl
  | append_singleton pairs pair ih =>
    obtain ⟨key, value⟩ := pair
    rw [List.foldl_append, lookupLast_concat]
    show get (insert _ key value) name = _
    rw [hinsert, ih]
    by_cases hname : name = key
    · simp [hname]
    · simp [hname]

/-- Searching the last of the pairs first. -/
theorem lookup_reverse (pairs : List (String × ν)) (name : String) :
    pairs.reverse.lookup name = lookupLast pairs name := by
  induction pairs using List.reverseRecOn with
  | nil => rfl
  | append_singleton pairs pair ih =>
    obtain ⟨key, value⟩ := pair
    rw [lookupLast_concat, List.reverse_append, List.reverse_singleton, List.singleton_append,
      List.lookup_cons, ih]
    by_cases hname : name = key
    · simp [hname]
    · simp [hname, beq_false_of_ne hname]

theorem lookupLast_map {ξ : Type} (f : ν → ξ) (pairs : List (String × ν))
    (name : String) :
    lookupLast (pairs.map fun pair => (pair.1, f pair.2)) name =
      (lookupLast pairs name).map f := by
  induction pairs using List.reverseRecOn with
  | nil => rfl
  | append_singleton pairs pair ih =>
    obtain ⟨key, value⟩ := pair
    rw [List.map_append, lookupLast_concat]
    show lookupLast (_ ++ [(key, f value)]) name = _
    rw [lookupLast_concat, ih]
    by_cases hname : name = key
    · simp [hname]
    · simp [hname]

/-- With distinct keys, searching finds the pairs that are there. -/
theorem lookup_eq_some_iff_mem {pairs : List (String × ν)}
    (h : (pairs.map Prod.fst).Nodup)
    {name : String} {value : ν} :
    pairs.lookup name = some value ↔ (name, value) ∈ pairs := by
  induction pairs with
  | nil => simp
  | cons pair rest ih =>
    obtain ⟨key, first⟩ := pair
    obtain ⟨hkey, hrest⟩ := List.nodup_cons.mp h
    rw [List.lookup_cons, List.mem_cons]
    by_cases hname : name = key
    · subst hname
      have habsent : (name, value) ∉ rest := fun hmem =>
        hkey (List.mem_map.mpr ⟨_, hmem, rfl⟩)
      simp [habsent, eq_comm]
    · simp [hname, beq_false_of_ne hname, ih hrest]

/-- With distinct keys, the order of the pairs does not matter. -/
theorem lookup_of_perm {pairs other : List (String × ν)} (h : (pairs.map Prod.fst).Nodup)
    (hperm : pairs.Perm other) (name : String) :
    other.lookup name = pairs.lookup name := by
  have hother : (other.map Prod.fst).Nodup := (hperm.map Prod.fst).nodup_iff.mp h
  apply Option.ext
  intro value
  rw [lookup_eq_some_iff_mem h, lookup_eq_some_iff_mem hother, hperm.mem_iff]

/-- With distinct keys, searching from the end finds what searching from the
start finds. -/
theorem lookupLast_eq_lookup {pairs : List (String × ν)} (h : (pairs.map Prod.fst).Nodup)
    (name : String) : lookupLast pairs name = pairs.lookup name := by
  rw [← lookup_reverse, lookup_of_perm h (List.reverse_perm pairs).symm]

end Lookup

/-! ## Dictionaries -/

namespace Dictionary

/-- Pairs that are put over a dictionary are looked through first. -/
theorem get?_extend (d : Dictionary) (pairs : List (String × String)) (name : String) :
    (d.extend pairs).get? name = (lookupLast pairs name).or (d.get? name) :=
  get_foldl get?_insert d pairs name

@[simp] theorem get?_ofList (pairs : List (String × String)) (name : String) :
    (ofList pairs).get? name = lookupLast pairs name := by
  rw [ofList, get?_extend]
  exact Option.or_none

theorem distinct_keys (d : Dictionary) : (d.entries.map Prod.fst).Nodup := by
  rw [List.Nodup, List.pairwise_map]
  apply d.increasing.imp
  rintro entry other hlt heq
  exact String.lt_irrefl _ (heq ▸ hlt)

theorem get?_eq_some_iff {d : Dictionary} {name value : String} :
    d.get? name = some value ↔ (name, value) ∈ d.entries :=
  lookup_eq_some_iff_mem d.distinct_keys

/-- A dictionary is told by what is found in it. -/
theorem eq_of_get?_eq {d e : Dictionary} (h : ∀ name, d.get? name = e.get? name) :
    d = e := by
  have hmem : ∀ entry, entry ∈ d.entries ↔ entry ∈ e.entries := by
    rintro ⟨name, value⟩
    rw [← get?_eq_some_iff, ← get?_eq_some_iff, h name]
  have hperm : d.entries.Perm e.entries :=
    (List.perm_ext_iff_of_nodup d.distinct_keys.of_map e.distinct_keys.of_map).mpr hmem
  apply eq_of_entries
  apply hperm.eq_of_pairwise _ d.increasing e.increasing
  intro entry other _ _ hlt hgt
  exact absurd hgt (String.lt_asymm hlt)

/-- A dictionary filled with pairs of distinct names holds them all. -/
theorem perm_entries_ofList {pairs : List (String × String)}
    (h : (pairs.map Prod.fst).Nodup) : (ofList pairs).entries.Perm pairs := by
  refine (List.perm_ext_iff_of_nodup (ofList pairs).distinct_keys.of_map h.of_map).mpr ?_
  rintro ⟨name, value⟩
  rw [← get?_eq_some_iff, get?_ofList, lookupLast_eq_lookup h, lookup_eq_some_iff_mem h]

/-- The entries of a dictionary fill it in any order. -/
theorem ofList_of_perm {d : Dictionary} {pairs : List (String × String)}
    (h : pairs.Perm d.entries) : ofList pairs = d := by
  have hpairs : (pairs.map Prod.fst).Nodup := (h.map Prod.fst).nodup_iff.mpr d.distinct_keys
  apply eq_of_get?_eq
  intro name
  rw [get?_ofList, lookupLast_eq_lookup hpairs]
  exact lookup_of_perm d.distinct_keys h.symm name

end Dictionary

end UrlRouting
