import Mathlib
import UrlRouting.Proofs.WrittenDocuments
import UrlRouting.RouteFile.Load
import UrlRouting.Regex.ProgramSize

/-!
# Route files that are written

A route file is written with the base path and the names that there are, and
with all its match types and routes. What may be left out on the writing side
has a usual value on the reading side. In whichever format it was written, the
route file is read back from it, and so the same router is built.

Main statement: `written_reads_back`.
-/

namespace UrlRouting

open List (Forall₂)

/-- A text of a format in which a document that was written is read. -/
def FileFormat.Writes (format : FileFormat) (written : Document) (text : String) : Prop :=
  ∃ d, format.documentOf? text = some d ∧ written.ReadAs d.root

/-! ## Routes -/

namespace RouteFile

open Document (record ReadAs)

variable {anchored : List (Nat × Document)} {rule : RecordLists}

/-- A field of a text that may be left out. -/
def optionalField (key : String) (value : Option String) : List (String × Document) :=
  (value.map fun s => (key, Document.text s)).toList

def fieldsOfRoute (r : Route String) : List (String × Document) :=
  [("method", .text r.methods), ("path", .text r.template), ("target", .text r.target)] ++
    optionalField "name" r.name

theorem documentOfRoute_eq (r : Route String) :
    documentOfRoute r = record (fieldsOfRoute r) := by
  unfold documentOfRoute fieldsOfRoute optionalEntry optionalField record
  cases r.name with
  | none => rfl
  | some name => rfl

theorem exists_of_rel_some {written : Document} {found : Option Document}
    (h : Option.Rel ReadAs (some written) found) :
    ∃ d, found = some d ∧ written.ReadAs d := by
  cases h with
  | some h => exact ⟨_, rfl, h⟩

/-- A text that may be left out is read if it is there. -/
theorem readOr_of_rel {value : Option String} {found : Option Document}
    (h : Option.Rel ReadAs (value.map Document.text) found) :
    readOr none (·.asOptionalText? anchored) found = some value := by
  cases value with
  | none =>
    cases h with
    | none => rfl
  | some s =>
    cases h with
    | some h => exact h.asOptionalText?

theorem routeOf?_of_readAs {r : Route String} {d : Document}
    (h : (documentOfRoute r).ReadAs d) : routeOf? rule anchored d = some r := by
  have hkeys : ((fieldsOfRoute r).map Prod.fst).Nodup := by
    unfold fieldsOfRoute optionalField
    cases r.name with
    | none => simp
    | some name => simp
  have hlookup : (fieldsOfRoute r).lookup "name" = r.name.map Document.text := by
    unfold fieldsOfRoute optionalField
    cases r.name with
    | none => rfl
    | some name => rfl
  rw [documentOfRoute_eq] at h
  obtain ⟨found, hrecord, hfound⟩ :=
    h.asRecord? anchored hkeys rule ["method", "path", "target", "name"]
  obtain ⟨methods, hmethods, hreadMethods⟩ := exists_of_rel_some (hfound "method")
  obtain ⟨template, htemplate, hreadTemplate⟩ := exists_of_rel_some (hfound "path")
  obtain ⟨target, htarget, hreadTarget⟩ := exists_of_rel_some (hfound "target")
  have hname := hfound "name"
  rw [hlookup] at hname
  unfold routeOf?
  simp only [hrecord, List.map_cons, List.map_nil, hmethods, htemplate, htarget,
    Option.bind_eq_bind, Option.bind_some, hreadMethods.asText?, hreadTemplate.asText?,
    hreadTarget.asText?, readOr_of_rel hname]
  rfl

/-! ## Sections -/

/-- The sections of a route file. A section for which there is a usual value may
be left out where it has that value. -/
structure Sections (f : RouteFile) (sections : List (String × Document)) : Prop where
  distinct : (sections.map Prod.fst).Nodup
  base : sections.lookup "base_path" = f.base.map .text
  types : sections.lookup "match_types" =
      some (record (f.types.entries.map fun (key, value) => (key, .text value))) ∨
    sections.lookup "match_types" = none ∧ f.types = .empty
  routes : sections.lookup "routes" = some (.list (f.routes.map documentOfRoute)) ∨
    sections.lookup "routes" = none ∧ f.routes = []

variable {f : RouteFile} {sections : List (String × Document)} {found : Option Document}

/-- The match types are read in some order. -/
theorem Sections.readTypes (anchored : List (Nat × Document)) (h : f.Sections sections)
    (hfound : Option.Rel ReadAs (sections.lookup "match_types") found) :
    ∃ pairs, readOr [] (·.asTexts? anchored) found = some pairs ∧
      Dictionary.ofList pairs = f.types := by
  rcases h.types with hthere | ⟨hleft, htypes⟩
  · rw [hthere] at hfound
    obtain ⟨d, rfl, hread⟩ := exists_of_rel_some hfound
    obtain ⟨pairs, hpairs, hperm⟩ := hread.asTexts? anchored
    exact ⟨pairs, hpairs, Dictionary.ofList_of_perm hperm.symm⟩
  · rw [hleft] at hfound
    cases hfound with
    | none => exact ⟨[], rfl, htypes.symm⟩

theorem Sections.readRoutes (rule : RecordLists) (anchored : List (Nat × Document))
    (h : f.Sections sections)
    (hfound : Option.Rel ReadAs (sections.lookup "routes") found) :
    ∃ items, readOr [] (·.asList? anchored) found = some items ∧
      items.mapM (routeOf? rule anchored) = some f.routes := by
  rcases h.routes with hthere | ⟨hleft, hroutes⟩
  · rw [hthere] at hfound
    obtain ⟨d, rfl, hread⟩ := exists_of_rel_some hfound
    obtain ⟨items, hitems, hroutes⟩ := hread.asList? anchored
    refine ⟨items, hitems, ?_⟩
    rw [mapM_eq_some_iff]
    rw [List.forall₂_map_left_iff] at hroutes
    apply hroutes.flip.imp
    intro item route hroute
    exact routeOf?_of_readAs hroute
  · rw [hleft] at hfound
    cases hfound with
    | none => exact ⟨[], rfl, by rw [hroutes]; rfl⟩

theorem Sections.ofDocument? (h : f.Sections sections) {d : AnchoredDocument}
    (hread : (record sections).ReadAs d.root) (rule : RecordLists) :
    RouteFile.ofDocument? rule d = some f := by
  obtain ⟨found, hrecord, hfound⟩ :=
    hread.asRecord? d.anchored h.distinct rule ["base_path", "match_types", "routes"]
  have hbase := hfound "base_path"
  rw [h.base] at hbase
  obtain ⟨pairs, htypes, hpairs⟩ := h.readTypes d.anchored (hfound "match_types")
  obtain ⟨items, hroutes, hitems⟩ :=
    h.readRoutes rule d.anchored (hfound "routes")
  unfold RouteFile.ofDocument?
  simp only [hrecord, List.map_cons, List.map_nil, Option.bind_eq_bind, Option.bind_some,
    readOr_of_rel hbase, htypes, hroutes, hitems, hpairs]
  rfl

/-- The sections that are written. -/
def sectionsOf (f : RouteFile) : List (String × Document) :=
  optionalField "base_path" f.base ++
    [("match_types", record (f.types.entries.map fun (key, value) => (key, .text value))),
      ("routes", .list (f.routes.map documentOfRoute))]

theorem toDocument_eq (f : RouteFile) : f.toDocument = record f.sectionsOf := by
  have htypes : Document.table (f.types.entries.map fun (k, v) => (.text k, .text v)) =
      record (f.types.entries.map fun (key, value) => (key, .text value)) := by
    simp [record]
  unfold toDocument
  rw [htypes]
  unfold sectionsOf optionalEntry optionalField
  cases f.base with
  | none => rfl
  | some base => rfl

theorem sections_sectionsOf (f : RouteFile) : f.Sections f.sectionsOf := by
  obtain ⟨base, types, routes⟩ := f
  cases base with
  | none => exact ⟨by simp [sectionsOf, optionalField], rfl, .inl rfl, .inl rfl⟩
  | some base => exact ⟨by simp [sectionsOf, optionalField], rfl, .inl rfl, .inl rfl⟩

theorem readAs_optionalField {key : String} {value : Option String} :
    ∀ field ∈ optionalField key value, field.2.ReadAs field.2 := by
  intro field hmem
  unfold optionalField at hmem
  obtain ⟨s, -, rfl⟩ : ∃ s, value = some s ∧ (key, Document.text s) = field := by simpa using hmem
  exact .text s

theorem readAs_documentOfRoute (r : Route String) :
    (documentOfRoute r).ReadAs (documentOfRoute r) := by
  rw [documentOfRoute_eq]
  apply Document.readAs_record
  intro field hmem
  rcases List.mem_append.mp hmem with hmem | hmem
  · simp only [List.mem_cons, List.not_mem_nil, or_false] at hmem
    rcases hmem with rfl | rfl | rfl
    · exact .text r.methods
    · exact .text r.template
    · exact .text r.target
  · exact readAs_optionalField field hmem

/-- What is written may be read without any change. -/
theorem readAs_toDocument (f : RouteFile) : f.toDocument.ReadAs f.toDocument := by
  rw [toDocument_eq]
  apply Document.readAs_record
  intro field hmem
  rcases List.mem_append.mp hmem with hmem | hmem
  · exact readAs_optionalField field hmem
  · simp only [List.mem_cons, List.not_mem_nil, or_false] at hmem
    rcases hmem with rfl | rfl
    · apply Document.readAs_record
      intro entry hentry
      obtain ⟨⟨key, value⟩, -, rfl⟩ := List.mem_map.mp hentry
      exact .text value
    · apply Document.ReadAs.list
      rw [List.forall₂_same]
      intro d hd
      obtain ⟨route, -, rfl⟩ := List.mem_map.mp hd
      exact readAs_documentOfRoute route

end RouteFile

/-- Whenever a text is read as the document that a route file is written to,
with the entries of tables in any order and with plain texts that do not stand
for nothing, it is read as this route file, and the same router is built from
it. It does not matter for this whether a section that has its usual value is
left out, nor what else stands beside the sections. -/
theorem written_reads_back [Regex.SizeLimit] (f : RouteFile) (format : FileFormat) :
    f.readsBack format = true ∧
    (∀ d : AnchoredDocument, f.toDocument.ReadAs d.root →
      RouteFile.ofDocument? format.recordLists d = some f) ∧
    (∀ text, format.Writes f.toDocument text → RouteFile.ofText? format text = some f ∧
      ∀ settings s, (RouteFile.ofText? format text).map (Router.ofRouteFile settings · s) =
        some (Router.ofRouteFile settings f s)) ∧
    ∀ sections, f.Sections sections →
      ∀ text, format.Writes (.record sections) text → RouteFile.ofText? format text = some f := by
  have hdocument : ∀ sections, f.Sections sections → ∀ text,
      format.Writes (.record sections) text → RouteFile.ofText? format text = some f := by
    rintro sections hsections text ⟨d, hd, hread⟩
    unfold RouteFile.ofText?
    rw [hd]
    exact hsections.ofDocument? hread format.recordLists
  have hsections := f.sections_sectionsOf
  rw [RouteFile.toDocument_eq]
  refine ⟨?_, fun d hread => hsections.ofDocument? hread _, fun text hwrites => ?_, hdocument⟩
  · apply decide_eq_true
    exact hsections.ofDocument? (d := ⟨_, []⟩) (f.toDocument_eq ▸ f.readAs_toDocument) _
  · have htext := hdocument _ hsections text hwrites
    refine ⟨htext, fun settings s => ?_⟩
    rw [htext]
    rfl

/-- A target that would stand for nothing without quotes: as it is written in
YAML, where the other texts have none, and in JSON with the sections in another
order and without the match types, of which there are none. -/
theorem written_reads_back_null :
    let file : RouteFile := ⟨some "/app", .empty, [⟨"GET", "/[i:page]?", "null", none⟩]⟩
    RouteFile.ofText? .yaml ("base_path: /app\nmatch_types: \x7b\x7d\nroutes:\n" ++
      "- method: GET\n  path: /[i:page]?\n  target: 'null'\n") = some file ∧
    RouteFile.ofText? .json ("\x7b\"routes\":[\x7b\"method\":\"GET\",\"path\":\"/[i:page]?\"," ++
      "\"target\":\"null\"\x7d],\"base_path\":\"/app\"\x7d") = some file := by
  intro file
  let plain (s : String) : Document := .plain s .untagged
  have hplain : ∀ s, s ≠ "" ∧ s ∉ Document.nullWords → (Document.text s).ReadAs (plain s) :=
    fun s h => .plain h.1 h.2
  have hroute : (RouteFile.documentOfRoute ⟨"GET", "/[i:page]?", "null", none⟩).ReadAs
      (.table [(plain "method", plain "GET"), (plain "path", plain "/[i:page]?"),
        (plain "target", .text "null")]) := by
    rw [RouteFile.documentOfRoute_eq, Document.record_readAs_iff]
    refine ⟨_, _, rfl, ?_, .refl _⟩
    exact .cons ⟨hplain _ (by decide), hplain _ (by decide)⟩
      (.cons ⟨hplain _ (by decide), hplain _ (by decide)⟩
        (.cons ⟨hplain _ (by decide), .text _⟩ .nil))
  have hyaml : file.toDocument.ReadAs (.table [(plain "base_path", plain "/app"),
      (plain "match_types", .table []), (plain "routes", .list [
        .table [(plain "method", plain "GET"), (plain "path", plain "/[i:page]?"),
          (plain "target", .text "null")]])]) := by
    rw [RouteFile.toDocument_eq, Document.record_readAs_iff]
    refine ⟨_, _, rfl, ?_, .refl _⟩
    exact .cons ⟨hplain _ (by decide), hplain _ (by decide)⟩
      (.cons ⟨hplain _ (by decide), .table .nil .nil .nil⟩
        (.cons ⟨hplain _ (by decide), .list (.cons hroute .nil)⟩ .nil))
  let sections : List (String × Document) :=
    [("routes", .list [RouteFile.documentOfRoute ⟨"GET", "/[i:page]?", "null", none⟩]),
      ("base_path", .text "/app")]
  have hsections : file.Sections sections := ⟨by decide, rfl, .inr ⟨rfl, rfl⟩, .inl rfl⟩
  have hjson : (Document.record sections).ReadAs (.record sections) := by
    apply Document.readAs_record
    intro field hmem
    simp only [sections, List.mem_cons, List.not_mem_nil, or_false] at hmem
    rcases hmem with rfl | rfl
    · exact .list (.cons (RouteFile.readAs_documentOfRoute _) .nil)
    · exact .text "/app"
  constructor
  · exact ((written_reads_back file .yaml).2.2.1 _ ⟨⟨_, []⟩, by cbv, hyaml⟩).1
  · exact (written_reads_back file .json).2.2.2 sections hsections _ ⟨⟨_, []⟩, by cbv, hjson⟩

end UrlRouting
