import Mathlib.Data.List.Dedup
import UrlRouting.Matcher
import UrlRouting.Proofs.Bytes
import UrlRouting.Proofs.Dictionaries

/-!
# Tables of match types

A table starts with the built-in match types and is filled by steps that write
one type or several. What is found under a name is what was written last under
it, or else the built-in type; and a table is told by that, so the order of
writes to different names and their grouping into steps leave no trace. The
types of a table stand in the order of the bytes of their names, which is the
order of the characters, since the bytes of a character with a larger number are
larger.

Main statement: `typesAfter_determined`.
-/

namespace UrlRouting

/-! ## The order of bytes -/

theorem utf8EncodeChar_append_lt {c d : Char} (h : c < d) (xs ys : List UInt8) :
    String.utf8EncodeChar c ++ xs < String.utf8EncodeChar d ++ ys := by
  have hval : c.val.toNat < d.val.toNat := h
  have hbound : d.val.toNat < 0x110000 := by
    rcases d.valid with hlow | ⟨-, hhigh⟩
    · exact Nat.lt_trans hlow (by decide)
    · exact hhigh
  have hmod : ∀ n : Nat, n < 256 → (UInt8.ofNat n).toNat = n := fun n hn => by
    rw [UInt8.toNat_ofNat', Nat.mod_eq_of_lt hn]
  have hdiv₂ : ∀ n : Nat, n / 4096 = n / 64 / 64 := fun n => (Nat.div_div_eq_div_mul n 64 64).symm
  have hdiv₃ : ∀ n : Nat, n / 262144 = n / 64 / 64 / 64 := fun n => by
    rw [Nat.div_div_eq_div_mul, Nat.div_div_eq_div_mul]
  unfold String.utf8EncodeChar
  dsimp only
  -- a character of fewer bytes has a smaller first byte
  repeat' split
  all_goals
    simp (disch := omega) only [List.cons_append, List.nil_append, List.cons_lt_cons_iff,
      UInt8.lt_iff_toNat_lt, ← UInt8.toNat_inj, hmod, hdiv₂, hdiv₃]
    omega

/-- Texts are ordered as their bytes are. -/
theorem encoded_lt_encoded {xs ys : List Char} (h : xs < ys) :
    encoded xs < encoded ys := by
  induction h with
  | @nil d rest =>
    obtain ⟨byte, bytes, hchar⟩ :=
      List.exists_cons_of_ne_nil (String.utf8EncodeChar_ne_nil (c := d))
    rw [encoded, encoded, List.flatMap_cons, hchar]
    exact List.nil_lt_cons _ _
  | rel h =>
    rw [encoded, encoded, List.flatMap_cons, List.flatMap_cons]
    exact utf8EncodeChar_append_lt h _ _
  | cons h ih =>
    rw [encoded, encoded, List.flatMap_cons, List.flatMap_cons]
    exact List.append_left_lt ih

/-- One text has smaller bytes than another at the first place where they
differ, or has fewer. -/
def BytesBefore (a b : String) : Prop :=
  a.toUTF8.data.toList < b.toUTF8.data.toList

theorem bytesBefore_of_lt {a b : String} (h : a < b) : BytesBefore a b := by
  rw [BytesBefore, toList_data_toUTF8, toList_data_toUTF8]
  exact encoded_lt_encoded h

/-! ## Steps that fill a table -/

/-- One step of filling a table of match types: with several types, or with one. -/
inductive TypesStep where
  | extend (pairs : List (String × String))
  | insert (name fragment : String)

/-- The names and fragments that a step writes, in order. -/
def TypesStep.writes : TypesStep → List (String × String)
  | extend pairs => pairs
  | insert name fragment => [(name, fragment)]

def TypesStep.perform (types : MatchTypes) : TypesStep → MatchTypes
  | extend pairs => types.extend pairs
  | insert name fragment => types.insert name fragment

/-- A new table after some steps. -/
def typesAfter (steps : List TypesStep) : MatchTypes :=
  steps.foldl TypesStep.perform MatchTypes.builtIn

/-- Everything that some steps write, in order. -/
def writesOf (steps : List TypesStep) : List (String × String) :=
  steps.flatMap TypesStep.writes

theorem TypesStep.perform_eq (types : MatchTypes) (step : TypesStep) :
    step.perform types = types.extend step.writes := by
  cases step with
  | extend pairs => rfl
  | insert name fragment => rfl

/-- A table after some steps holds everything they write, put over the built-in
types at once. -/
theorem typesAfter_eq (steps : List TypesStep) :
    typesAfter steps = MatchTypes.builtIn.extend (writesOf steps) := by
  induction steps using List.reverseRecOn with
  | nil => rfl
  | append_singleton steps step ih =>
    have hwrites : writesOf (steps ++ [step]) = writesOf steps ++ step.writes := by
      rw [writesOf, writesOf, List.flatMap_append, List.flatMap_singleton]
    rw [typesAfter, List.foldl_append, List.foldl_cons, List.foldl_nil, ← typesAfter,
      TypesStep.perform_eq, ih, hwrites]
    exact List.foldl_append.symm

theorem get?_builtIn_eq_some_iff {name fragment : String} :
    MatchTypes.builtIn.get? name = some fragment ↔ (name, fragment) ∈ builtInTypes := by
  have hdistinct : (builtInTypes.map Prod.fst).Nodup := by decide
  rw [MatchTypes.builtIn, Dictionary.get?_ofList, lookupLast_eq_lookup hdistinct,
    lookup_eq_some_iff_mem hdistinct]

/-! ## What was written last -/

/-- Nothing is found as the last value of a name that is not among the pairs. -/
theorem lookupLast_eq_none_iff {pairs : List (String × String)} {name : String} :
    lookupLast pairs name = none ↔ name ∉ pairs.map Prod.fst := by
  unfold lookupLast
  rw [Option.map_eq_none_iff, List.find?_eq_none]
  constructor
  · intro h hmem
    obtain ⟨pair, hpair, hname⟩ := List.mem_map.mp hmem
    exact h pair (List.mem_reverse.mpr hpair) (beq_iff_eq.mpr hname)
  · intro h pair hpair hname
    exact h (List.mem_map.mpr ⟨pair, List.mem_reverse.mp hpair, beq_iff_eq.mp hname⟩)

theorem get?_typesAfter_iff {steps : List TypesStep} {name fragment : String} :
    (typesAfter steps).get? name = some fragment ↔
      LastValue (writesOf steps) name fragment ∨
        name ∉ (writesOf steps).map Prod.fst ∧ (name, fragment) ∈ builtInTypes := by
  rw [typesAfter_eq, Dictionary.get?_extend, Option.or_eq_some_iff, lookupLast_eq_some_iff,
    lookupLast_eq_none_iff, get?_builtIn_eq_some_iff]

theorem contains_iff_mem_keys {d : Dictionary} {name : String} :
    d.contains name = true ↔ name ∈ d.entries.map Prod.fst := by
  rw [Dictionary.contains, Option.isSome_iff_exists]
  simp only [Dictionary.get?_eq_some_iff, List.mem_map, Prod.exists, exists_and_right,
    exists_eq_right]

theorem contains_typesAfter_iff {steps : List TypesStep} {name : String} :
    (typesAfter steps).contains name = true ↔
      name ∈ (builtInTypes ++ writesOf steps).map Prod.fst := by
  rw [typesAfter_eq, Dictionary.contains, Dictionary.get?_extend, Option.isSome_or,
    Bool.or_eq_true, List.map_append, List.mem_append, or_comm]
  refine or_congr ?_ ?_
  · rw [Option.isSome_iff_exists]
    simp only [get?_builtIn_eq_some_iff, List.mem_map, Prod.exists, exists_and_right,
      exists_eq_right]
  · rw [← not_iff_not, Bool.not_eq_true, Option.isSome_eq_false_iff, Option.isNone_iff_eq_none,
      lookupLast_eq_none_iff]

/-- A table counts the names that are built in or written, each once. -/
theorem size_typesAfter (steps : List TypesStep) :
    (typesAfter steps).size = ((builtInTypes ++ writesOf steps).map Prod.fst).dedup.length := by
  have hperm : ((typesAfter steps).entries.map Prod.fst).Perm
      ((builtInTypes ++ writesOf steps).map Prod.fst).dedup := by
    refine (List.perm_ext_iff_of_nodup (typesAfter steps).distinct_keys (List.nodup_dedup _)).mpr ?_
    intro name
    rw [List.mem_dedup, ← contains_iff_mem_keys, contains_typesAfter_iff]
  rw [← hperm.length_eq, List.length_map, Dictionary.size]

/-- Adding types to a matcher is a step of its table. -/
theorem types_addTypes {m : Matcher} {steps : List TypesStep}
    (h : m.types = typesAfter steps) (pairs : List (String × String)) (s : Session) :
    (m.addTypes pairs s).1.types = typesAfter (steps ++ [.extend pairs]) := by
  rw [typesAfter, List.foldl_append, ← typesAfter, ← h]
  rfl

/-- Two tables whose names were last written with the same fragments are the same. -/
theorem typesAfter_eq_of_lastValue {steps others : List TypesStep}
    (h : ∀ name fragment, LastValue (writesOf steps) name fragment ↔
      LastValue (writesOf others) name fragment) : typesAfter steps = typesAfter others := by
  apply Dictionary.eq_of_get?_eq
  intro name
  have hlast : lookupLast (writesOf steps) name = lookupLast (writesOf others) name :=
    Option.ext fun fragment => by
      rw [lookupLast_eq_some_iff, lookupLast_eq_some_iff, h]
  rw [typesAfter_eq, typesAfter_eq, Dictionary.get?_extend, Dictionary.get?_extend, hlast]

/-- What a table holds after steps of any number and kind: the fragment written
last under a name, or else the built-in one; each name once, in the order of
bytes. Steps that write the same fragments last lead to the same table, and a
matcher fills its own table by such steps. -/
theorem typesAfter_determined (steps : List TypesStep) :
    (∀ name fragment, (typesAfter steps).get? name = some fragment ↔
      LastValue (writesOf steps) name fragment ∨
        name ∉ (writesOf steps).map Prod.fst ∧ (name, fragment) ∈ builtInTypes) ∧
    (∀ name, (typesAfter steps).contains name = true ↔
      ∃ fragment, (typesAfter steps).get? name = some fragment) ∧
    (typesAfter steps).entries.Pairwise (fun entry other => BytesBefore entry.1 other.1) ∧
    (∀ name fragment, (name, fragment) ∈ (typesAfter steps).entries ↔
      (typesAfter steps).get? name = some fragment) ∧
    (typesAfter steps).size = (typesAfter steps).entries.length ∧
    (typesAfter steps).size = ((builtInTypes ++ writesOf steps).map Prod.fst).dedup.length ∧
    (∀ pair ∈ builtInTypes, (typesAfter steps).contains pair.1 = true) ∧
    (∀ others : List TypesStep, (∀ name fragment, LastValue (writesOf steps) name fragment ↔
        LastValue (writesOf others) name fragment) → typesAfter steps = typesAfter others) ∧
    ∀ (m : Matcher) (pairs : List (String × String)) (s : Session),
      m.types = typesAfter steps →
        (m.addTypes pairs s).1.types = typesAfter (steps ++ [.extend pairs]) := by
  refine ⟨fun _ _ => get?_typesAfter_iff, ?_, ?_, ?_, rfl, size_typesAfter steps, ?_,
    fun _ => typesAfter_eq_of_lastValue, fun m pairs s h => types_addTypes h pairs s⟩
  · intro name
    rw [Dictionary.contains, Option.isSome_iff_exists]
  · exact (typesAfter steps).increasing.imp bytesBefore_of_lt
  · exact fun name fragment => Dictionary.get?_eq_some_iff.symm
  · intro pair hpair
    rw [contains_typesAfter_iff, List.map_append]
    exact List.mem_append_left _ (List.mem_map_of_mem hpair)

/-- The default type and a new one are written, the new one twice, in other
groups and order. -/
theorem typesAfter_determined_regrouped :
    typesAfter [.extend [("é", "[a-z]+"), ("", "[^/]+"), ("é", "[a-z-]+")], .insert "h" "[0-9]"] =
      typesAfter [.insert "h" "[0-9]", .extend [("é", "[a-z-]+")], .extend [("", "[^/]+")]] ∧
    (typesAfter [.extend [("é", "[a-z]+"), ("", "[^/]+"), ("é", "[a-z-]+")],
      .insert "h" "[0-9]"]).size = 7 ∧
    (typesAfter [.extend [("é", "[a-z]+"), ("", "[^/]+"), ("é", "[a-z-]+")],
      .insert "h" "[0-9]"]).get? "é" = some "[a-z-]+" := by
  obtain ⟨hget, -, -, -, -, hsize, -, hequal, -⟩ := typesAfter_determined
    [.extend [("é", "[a-z]+"), ("", "[^/]+"), ("é", "[a-z-]+")], .insert "h" "[0-9]"]
  refine ⟨hequal _ ?_, hsize.trans (by decide), (hget _ _).mpr (Or.inl ?_)⟩
  · intro name fragment
    rw [← lookupLast_eq_some_iff, ← lookupLast_eq_some_iff]
    by_cases hnew : "é" = name
    · subst hnew
      rfl
    · by_cases hdefault : "" = name
      · subst hdefault
        rfl
      · simp [lookupLast, writesOf, TypesStep.writes, hnew, hdefault]
  · exact lookupLast_eq_some_iff.mp (by decide)

end UrlRouting
