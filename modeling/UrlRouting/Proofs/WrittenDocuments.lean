import Mathlib.Data.List.Perm.Basic
import UrlRouting.Document.Basic
import UrlRouting.Proofs.Dictionaries

/-!
# Documents that are read as they were written

Documents are written as trees of tables, lists and texts. What is read there
may have the entries of its tables in another order, and its texts without
quotes, if they are not then taken for nothing. In a record with distinct keys,
each field is read as it was written.

Main statement: `Document.ReadAs.asRecord?`.
-/

namespace UrlRouting

open List (Forall₂)

/-- What may be read where tables, lists and texts were written. -/
inductive Document.ReadAs : Document → Document → Prop
  | text (s : String) : ReadAs (.text s) (.text s)
  | plain {s : String} (hs : s ≠ "") (hword : s ∉ nullWords) :
    ReadAs (.text s) (.plain s .untagged)
  | list {items read : List Document} (hitems : Forall₂ ReadAs items read) :
    ReadAs (.list items) (.list read)
  | table {entries listed read : List (Document × Document)}
    (hkeys : Forall₂ ReadAs (entries.map Prod.fst) (listed.map Prod.fst))
    (hvalues : Forall₂ ReadAs (entries.map Prod.snd) (listed.map Prod.snd))
    (horder : listed.Perm read) : ReadAs (.table entries) (.table read)

theorem forall₂_and_iff {α β : Type} {R S : α → β → Prop} {l : List α} {m : List β} :
    Forall₂ (fun a b => R a b ∧ S a b) l m ↔ Forall₂ R l m ∧ Forall₂ S l m := by
  induction l generalizing m with
  | nil => simp
  | cons a l ih =>
    cases m with
    | nil => simp
    | cons b m => simp only [List.forall₂_cons, ih, and_assoc, and_left_comm]

theorem mapM_eq_some_iff {α β : Type} {f : α → Option β} {items : List α}
    {results : List β} :
    items.mapM f = some results ↔
      Forall₂ (fun item result => f item = some result) items results := by
  induction items generalizing results with
  | nil => simp [eq_comm]
  | cons item rest ih =>
    simp only [List.mapM_cons, Option.bind_eq_bind, Option.bind_eq_some_iff, Option.pure_def,
      Option.some.injEq, ih, List.forall₂_cons_left_iff]
    constructor
    · rintro ⟨first, hfirst, others, hothers, rfl⟩
      exact ⟨first, others, hfirst, hothers, rfl⟩
    · rintro ⟨first, others, hfirst, hothers, rfl⟩
      exact ⟨first, hfirst, others, hothers, rfl⟩

/-- Results come in the order of the items. -/
theorem mapM_of_perm {α β : Type} {f : α → Option β} {items other : List α}
    {results : List β} (hperm : items.Perm other) (h : items.mapM f = some results) :
    ∃ reordered, other.mapM f = some reordered ∧ results.Perm reordered := by
  rw [mapM_eq_some_iff] at h
  obtain ⟨reordered, hreordered, hperm⟩ := List.perm_comp_forall₂ hperm.symm h
  exact ⟨reordered, mapM_eq_some_iff.mpr hreordered, hperm.symm⟩

namespace Document

variable {written d : Document} {s : String} {anchored : List (Nat × Document)}

theorem ReadAs.asText? (h : (Document.text s).ReadAs d) :
    d.asText? anchored = some s := by
  cases h with
  | text => rfl
  | plain => rfl

theorem ReadAs.asOptionalText? (h : (Document.text s).ReadAs d) :
    d.asOptionalText? anchored = some (some s) := by
  cases h with
  | text => rfl
  | plain hs hword => simp [Document.asOptionalText?, resolve, hs, hword]

theorem ReadAs.asList? (anchored : List (Nat × Document)) {items : List Document}
    (h : (Document.list items).ReadAs d) :
    ∃ read, d.asList? anchored = some read ∧ Forall₂ ReadAs items read := by
  cases h with
  | list hitems => exact ⟨_, rfl, hitems⟩

/-! ## Records -/

/-- A table whose keys are texts. -/
def record (fields : List (String × Document)) : Document :=
  table (fields.map fun (key, value) => (text key, value))

/-- Entries that are read one for one where fields were written. -/
def FieldsReadAs (fields : List (String × Document))
    (listed : List (Document × Document)) :
    Prop :=
  Forall₂ (fun field entry => (text field.1).ReadAs entry.1 ∧ field.2.ReadAs entry.2) fields listed

/-- A record is read as its fields in some order. -/
theorem record_readAs_iff {fields : List (String × Document)} :
    (record fields).ReadAs d ↔
      ∃ listed read, d = table read ∧ FieldsReadAs fields listed ∧ listed.Perm read := by
  have hfields : ∀ listed : List (Document × Document), FieldsReadAs fields listed ↔
      Forall₂ ReadAs ((fields.map fun (key, value) => (text key, value)).map Prod.fst)
          (listed.map Prod.fst) ∧
        Forall₂ ReadAs ((fields.map fun (key, value) => (text key, value)).map Prod.snd)
          (listed.map Prod.snd) := by
    intro listed
    simp only [FieldsReadAs, List.map_map, List.forall₂_map_left_iff, List.forall₂_map_right_iff]
    exact forall₂_and_iff
  constructor
  · intro h
    unfold record at h
    cases h with
    | table hkeys hvalues horder => exact ⟨_, _, rfl, (hfields _).mpr ⟨hkeys, hvalues⟩, horder⟩
  · rintro ⟨listed, read, rfl, hread, horder⟩
    obtain ⟨hkeys, hvalues⟩ := (hfields listed).mp hread
    exact .table hkeys hvalues horder

theorem readAs_record {fields : List (String × Document)}
    (h : ∀ field ∈ fields, field.2.ReadAs field.2) :
    (record fields).ReadAs (record fields) := by
  refine record_readAs_iff.mpr ⟨_, _, rfl, ?_, .refl _⟩
  unfold FieldsReadAs
  rw [List.forall₂_map_right_iff, List.forall₂_same]
  exact fun field hmem => ⟨.text field.1, h field hmem⟩

/-- Values that are read one for one under the keys of fields. -/
def ValuesReadAs (fields entries : List (String × Document)) : Prop :=
  Forall₂ (fun field entry => field.1 = entry.1 ∧ field.2.ReadAs entry.2) fields entries

/-- The keys of entries are read as the texts they are. -/
theorem FieldsReadAs.mapM (anchored : List (Nat × Document))
    {fields : List (String × Document)}
    {entries : List (Document × Document)} (h : FieldsReadAs fields entries) :
    ∃ listed, entries.mapM (fun (key, value) => (key.asText? anchored).map (·, value)) =
      some listed ∧ ValuesReadAs fields listed := by
  unfold FieldsReadAs at h
  induction h with
  | nil => exact ⟨[], rfl, .nil⟩
  | @cons field entry _ _ hfirst _ ih =>
    obtain ⟨listed, hlisted, hfields⟩ := ih
    have hkey : entry.1.asText? anchored = some field.1 := hfirst.1.asText?
    exact ⟨(field.1, entry.2) :: listed, by simp [hkey, hlisted], .cons ⟨rfl, hfirst.2⟩ hfields⟩

theorem ReadAs.asEntries? (anchored : List (Nat × Document))
    {fields : List (String × Document)} (h : (record fields).ReadAs d) :
    ∃ listed read, d.asEntries? anchored = some read ∧ ValuesReadAs fields listed ∧
      listed.Perm read := by
  obtain ⟨entries, ordered, rfl, hread, hperm⟩ := record_readAs_iff.mp h
  obtain ⟨listed, hlisted, hfields⟩ := hread.mapM anchored
  obtain ⟨read, hread, hperm⟩ := mapM_of_perm hperm hlisted
  exact ⟨listed, read, hread, hfields, hperm⟩

/-- A field that is given once at most has the value found under its key. -/
theorem field_of_distinct {entries : List (String × Document)}
    (h : (entries.map Prod.fst).Nodup) (field : String) :
    (match entries.filter (·.1 = field) with
      | [] => some none
      | [(_, value)] => some (some value)
      | _ => none) = some (entries.lookup field) := by
  induction entries with
  | nil => rfl
  | cons entry rest ih =>
    obtain ⟨key, value⟩ := entry
    obtain ⟨hkey, hrest⟩ := List.nodup_cons.mp h
    by_cases hfield : key = field
    · subst hfield
      have hnone : rest.filter (·.1 = key) = [] := by
        rw [List.filter_eq_nil_iff]
        intro other hmem heq
        exact hkey (List.mem_map.mpr ⟨other, hmem, of_decide_eq_true heq⟩)
      simp [hnone]
    · rw [List.lookup_cons, beq_false_of_ne (Ne.symm hfield), ← ih hrest]
      simp [hfield]

theorem lookup_readAs {fields listed : List (String × Document)}
    (h : ValuesReadAs fields listed) (name : String) :
    Option.Rel ReadAs (fields.lookup name) (listed.lookup name) := by
  induction h with
  | nil => exact .none
  | @cons field entry _ _ hfirst _ ih =>
    obtain ⟨key, value⟩ := field
    obtain ⟨key', value'⟩ := entry
    obtain ⟨rfl, hvalue⟩ : key = key' ∧ value.ReadAs value' := hfirst
    rw [List.lookup_cons, List.lookup_cons]
    by_cases hname : name = key
    · rw [hname, beq_self_eq_true]
      exact .some hvalue
    · rw [beq_false_of_ne hname]
      exact ih

theorem keys_readAs {fields listed : List (String × Document)}
    (h : ValuesReadAs fields listed) :
    fields.map Prod.fst = listed.map Prod.fst := by
  induction h with
  | nil => rfl
  | cons hfirst _ ih => rw [List.map_cons, List.map_cons, hfirst.1, ih]

/-- Under each name a record has what was written there. -/
theorem ReadAs.asRecord? (anchored : List (Nat × Document))
    {fields : List (String × Document)}
    (h : (record fields).ReadAs d) (hkeys : (fields.map Prod.fst).Nodup)
    (rule : RecordLists) (names : List String) :
    ∃ found : String → Option Document,
      d.asRecord? rule anchored names = some (names.map found) ∧
      ∀ name, Option.Rel ReadAs (fields.lookup name) (found name) := by
  obtain ⟨listed, read, hread, hfields, hperm⟩ := h.asEntries? anchored
  have hlisted : (listed.map Prod.fst).Nodup := by rwa [← keys_readAs hfields]
  have hdistinct : (read.map Prod.fst).Nodup := (hperm.map Prod.fst).nodup_iff.mp hlisted
  refine ⟨fun name => read.lookup name, ?_, fun name => ?_⟩
  · have hfound : ∀ (entries : List (Document × Document)),
        (Document.table entries).asEntries? anchored = some read →
          (Document.table entries).asRecord? rule anchored names =
            some (names.map fun name => read.lookup name) := by
      intro entries hentries
      unfold Document.asRecord?
      simp only [resolve, hentries, Option.bind_eq_bind, Option.bind_some]
      exact (congrArg names.mapM (funext (field_of_distinct hdistinct))).trans List.mapM_pure
    unfold record at h
    cases h with
    | table => exact hfound _ hread
  · show Option.Rel ReadAs _ (read.lookup name)
    rw [lookup_of_perm hlisted hperm]
    exact lookup_readAs hfields name

/-- The texts of a table are read, in some order. -/
theorem ReadAs.asTexts? (anchored : List (Nat × Document))
    {texts : List (String × String)}
    (h : (record (texts.map fun (key, value) => (key, Document.text value))).ReadAs d) :
    ∃ read, d.asTexts? anchored = some read ∧ texts.Perm read := by
  obtain ⟨listed, entries, hentries, hfields, hperm⟩ := h.asEntries? anchored
  have hlisted : listed.mapM (fun (key, value) => (value.asText? anchored).map (key, ·)) =
      some texts := by
    rw [mapM_eq_some_iff]
    unfold ValuesReadAs at hfields
    rw [List.forall₂_map_left_iff] at hfields
    refine hfields.flip.imp ?_
    rintro ⟨key, value⟩ ⟨key', s⟩ ⟨rfl, hvalue⟩
    have hs : value.asText? anchored = some s := ReadAs.asText? hvalue
    simp [hs]
  obtain ⟨read, hread, hperm⟩ := mapM_of_perm hperm hlisted
  refine ⟨read, ?_, hperm⟩
  unfold Document.asTexts?
  rw [hentries]
  exact hread

end Document

end UrlRouting
