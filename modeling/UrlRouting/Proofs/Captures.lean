import Mathlib.Data.List.Pairwise
import UrlRouting.CommandLine.Run
import UrlRouting.Proofs.FailedCalls
import UrlRouting.Proofs.RoundTrip
import UrlRouting.Proofs.RouteFiles
import UrlRouting.Proofs.WrittenJson
import UrlRouting.Regex.ProgramSize

/-!
# What a match reports

A match goes a way through the expression of a pattern, and a group that it goes
through leaves a mark. The groups of an expression have different numbers and
different names, whatever groups the match types and a raw template bring with
them. So a name has one group, the value that is reported under it is what that
group took last, and a name is left out if its group has no mark. Parameters
with distinct names lose nothing when they are put into a dictionary, and the
JSON object that is printed for them is read back with the same parameters that
the lines list.

Main statement: `captures_lossless`.
-/

namespace UrlRouting

open Regex

/-! ## Marks and the texts that they mark -/

/-- The last mark of a group. The marks of a way stand with the last one first. -/
def LastMark (marks : List Mark) (number : Nat) (mark : Mark) : Prop :=
  ∃ later earlier, marks = later ++ mark :: earlier ∧ mark.group = number ∧
    ∀ other ∈ later, other.group ≠ number

theorem find?_mark_eq_some_iff {marks : List Mark} {number : Nat} {mark : Mark} :
    marks.find? (·.group = number) = some mark ↔ LastMark marks number mark := by
  rw [List.find?_eq_some_iff_append]
  constructor
  · rintro ⟨hgroup, later, earlier, hmarks, hlater⟩
    refine ⟨later, earlier, hmarks, of_decide_eq_true hgroup, fun other hmem => ?_⟩
    simpa using hlater other hmem
  · rintro ⟨later, earlier, hmarks, hgroup, hlater⟩
    refine ⟨decide_eq_true hgroup, later, earlier, hmarks, fun other hmem => ?_⟩
    simpa using hlater other hmem

theorem LastMark.mem {marks : List Mark} {number : Nat} {mark : Mark}
    (h : LastMark marks number mark) : mark ∈ marks :=
  List.mem_of_find?_eq_some (find?_mark_eq_some_iff.mpr h)

/-- A group has a last mark if it has any. -/
theorem not_exists_lastMark_iff {marks : List Mark} {number : Nat} :
    (¬∃ mark, LastMark marks number mark) ↔ ∀ mark ∈ marks, mark.group ≠ number := by
  have hnone : marks.find? (·.group = number) = none ↔ ∀ mark ∈ marks, mark.group ≠ number := by
    simp
  simp only [← find?_mark_eq_some_iff, ← Option.ne_none_iff_exists', not_not, hnone]

/-- The piece of a text from one position to another. -/
def TextBetween (text : List Char) (i j : Nat) (piece : List Char) : Prop :=
  ∃ before after, text = before ++ (piece ++ after) ∧ before.length = i ∧ i + piece.length = j

theorem textBetween_iff {text piece : List Char} {i j : Nat} (hij : i ≤ j)
    (hj : j ≤ text.length) :
    TextBetween text i j piece ↔ piece = (text.drop i).take (j - i) := by
  constructor
  · rintro ⟨before, after, rfl, rfl, rfl⟩
    rw [List.drop_left, Nat.add_sub_cancel_left, List.take_left]
  · rintro rfl
    refine ⟨text.take i, text.drop j, ?_, ?_, ?_⟩
    · have hbehind : text.drop j = (text.drop i).drop (j - i) := by
        rw [List.drop_drop, Nat.add_sub_cancel' hij]
      rw [hbehind, List.take_append_drop, List.take_append_drop]
    · rw [List.length_take, Nat.min_eq_left (Nat.le_trans hij hj)]
    · rw [List.length_take, List.length_drop]
      omega

/-! ## What a pattern reports -/

/-- What a pattern reports of a path, by the marks of a match: each name at most
once and in the order of the groups, with the piece of the path that the last
mark of its group stands for. A name is missing if its group has no mark. -/
structure Reports (c : CompiledPattern) (path : List Char) (marks : List Mark)
    (params : Params) :
    Prop where
  names : (params.entries.map Prod.fst).Sublist c.groupNames
  distinct : (params.entries.map Prod.fst).Nodup
  value : ∀ group ∈ c.expr.groups, ∀ name, group.name = some name → ∀ value,
    (name, value) ∈ params.entries ↔ ∃ mark, LastMark marks group.number mark ∧
      TextBetween path mark.start mark.stop value.toList
  missing : ∀ group ∈ c.expr.groups, ∀ name, group.name = some name →
    (name ∉ params.entries.map Prod.fst ↔ ∀ mark ∈ marks, mark.group ≠ group.number)

section Patterns

variable {types : MatchTypes} {template : String} {c : CompiledPattern}

theorem CompiledPattern.groupNames_eq (c : CompiledPattern) :
    c.groupNames = c.expr.groups.filterMap CaptureGroup.name := by
  rw [CompiledPattern.groupNames, Expr.namedGroups_eq, List.map_filterMap]
  refine List.filterMap_congr fun group _ => ?_
  rw [Option.map_map]
  exact Option.map_id'

/-- Only groups that have a mark are reported, under their own names. -/
theorem sublist_reported (text : List Char) (marks : List Mark)
    (groups : List (Nat × String)) :
    ((groups.filterMap (reported text marks)).map Prod.fst).Sublist (groups.map Prod.snd) := by
  induction groups with
  | nil => exact List.Sublist.refl _
  | cons group rest ih =>
    cases hgroup : reported text marks group with
    | none =>
      rw [List.filterMap_cons_none hgroup]
      exact ih.cons _
    | some entry =>
      obtain ⟨mark, -, rfl⟩ := Option.map_eq_some_iff.mp hgroup
      rw [List.filterMap_cons_some hgroup]
      exact ih.cons_cons _

/-- Every mark of a match is one of a group of the expression, which takes what
is marked. -/
theorem taken_of_search {e : Regex.Pattern} {text : List Char} {m : Regex.Match}
    (h : Pattern.search e text = some m) {mark : Mark} (hmark : mark ∈ m.marks) :
    mark.start ≤ mark.stop ∧ mark.stop ≤ text.length ∧
      ∃ group ∈ e.groups, group.number = mark.group ∧
        (Pattern.on group.inner text).Reaches mark.start mark.stop := by
  obtain ⟨hway, hstop⟩ := way_of_search h
  obtain ⟨added, hadded, hmarks⟩ := hway.setsMarks
  rw [List.append_nil] at hadded
  change m.marks = added at hadded
  have hbetween := hmarks mark (hadded ▸ hmark)
  obtain ⟨_, hmem, hnumber, htaken⟩ := hbetween.taken
  rw [Pattern.on, Expr.groups_map] at hmem
  obtain ⟨group, hgroup, rfl⟩ := List.mem_map.mp hmem
  exact ⟨htaken.le, Nat.le_trans hbetween.stop_le hstop, group, hgroup, hnumber, htaken⟩

variable [SizeLimit]

/-- The groups of a compiled pattern: their numbers increase, and their names differ. -/
theorem numbered_of_compileTemplate (hcompile : compileTemplate types template = .ok c) :
    (c.expr.groups.map CaptureGroup.number).Pairwise (· < ·) ∧ c.groupNames.Nodup := by
  obtain ⟨text, expr, -, hexpr, rfl⟩ := compileTemplate_eq_ok_iff.mp hcompile
  rw [CompiledPattern.groupNames_eq]
  exact numbered_of_ofText? hexpr

/-- No two groups of a compiled pattern have one name. -/
theorem eq_of_name_eq (hcompile : compileTemplate types template = .ok c)
    {group other : CaptureGroup CharClass Look} (hgroup : group ∈ c.expr.groups)
    (hother : other ∈ c.expr.groups) {name : String} (hname : group.name = some name)
    (hname' : other.name = some name) : group = other := by
  have hdistinct := (numbered_of_compileTemplate hcompile).2
  rw [c.groupNames_eq, List.Nodup, List.pairwise_filterMap] at hdistinct
  have : Std.Symm fun a b : CaptureGroup CharClass Look =>
      ∀ own, a.name = some own → ∀ own', b.name = some own' → own ≠ own' :=
    ⟨fun _ _ h own hown own' hown' => (h own' hown' own hown).symm⟩
  by_contra hne
  exact hdistinct.forall hgroup hother hne name hname name hname' rfl

theorem mem_namedGroups_iff (hcompile : compileTemplate types template = .ok c)
    {group : CaptureGroup CharClass Look} (hgroup : group ∈ c.expr.groups) {name : String}
    (hname : group.name = some name) (number : Nat) :
    (number, name) ∈ c.expr.namedGroups ↔ number = group.number := by
  rw [Expr.namedGroups_eq, List.mem_filterMap]
  constructor
  · rintro ⟨other, hother, hlabel⟩
    obtain ⟨own, hown, heq⟩ := Option.map_eq_some_iff.mp hlabel
    cases heq
    rw [eq_of_name_eq hcompile hgroup hother hname hown]
  · rintro rfl
    exact ⟨group, hgroup, by rw [hname]; rfl⟩

/-- What is reported of a match whose marks lie in the path. -/
theorem reports_paramsOf (hcompile : compileTemplate types template = .ok c)
    (path : List Char) (m : Regex.Match)
    (hmarks : ∀ mark ∈ m.marks, mark.start ≤ mark.stop ∧ mark.stop ≤ path.length) :
    Reports c path m.marks (c.paramsOf path m) := by
  have hvalue : ∀ group ∈ c.expr.groups, ∀ name, group.name = some name → ∀ value,
      (name, value) ∈ (c.paramsOf path m).entries ↔ ∃ mark, LastMark m.marks group.number mark ∧
        TextBetween path mark.start mark.stop value.toList := by
    intro group hgroup name hname value
    rw [CompiledPattern.entries_paramsOf, List.mem_filterMap]
    constructor
    · rintro ⟨⟨number, own⟩, hmem, hreported⟩
      obtain ⟨mark, hfind, heq⟩ := Option.map_eq_some_iff.mp hreported
      cases heq
      obtain rfl := (mem_namedGroups_iff hcompile hgroup hname number).mp hmem
      have hlast := find?_mark_eq_some_iff.mp hfind
      obtain ⟨hle, hstop⟩ := hmarks mark hlast.mem
      exact ⟨mark, hlast, (textBetween_iff hle hstop).mpr String.toList_ofList⟩
    · rintro ⟨mark, hlast, htext⟩
      obtain ⟨hle, hstop⟩ := hmarks mark hlast.mem
      refine ⟨(group.number, name), (mem_namedGroups_iff hcompile hgroup hname _).mpr rfl, ?_⟩
      rw [reported, find?_mark_eq_some_iff.mpr hlast, Option.map_some,
        ← (textBetween_iff hle hstop).mp htext, String.ofList_toList]
  have hnames : ((c.paramsOf path m).entries.map Prod.fst).Sublist c.groupNames := by
    rw [CompiledPattern.entries_paramsOf]
    exact sublist_reported ..
  refine ⟨hnames, (numbered_of_compileTemplate hcompile).2.sublist hnames, hvalue, ?_⟩
  intro group hgroup name hname
  rw [← not_exists_lastMark_iff, not_iff_not, List.mem_map]
  constructor
  · rintro ⟨⟨_, value⟩, hmem, rfl⟩
    obtain ⟨mark, hlast, -⟩ := (hvalue group hgroup _ hname value).mp hmem
    exact ⟨mark, hlast⟩
  · rintro ⟨mark, hlast⟩
    obtain ⟨hle, hstop⟩ := hmarks mark hlast.mem
    refine ⟨(name, String.ofList ((path.drop mark.start).take (mark.stop - mark.start))), ?_, rfl⟩
    refine (hvalue group hgroup name hname _).mpr ⟨mark, hlast, ?_⟩
    exact (textBetween_iff hle hstop).mpr String.toList_ofList

theorem exists_reports_of_captures (hcompile : compileTemplate types template = .ok c)
    {path : String} {params : Params} (hcaptures : c.captures path = some params) :
    ∃ m, Pattern.search c.expr path.toList = some m ∧ Reports c path.toList m.marks params := by
  obtain ⟨m, hm, rfl⟩ := Option.map_eq_some_iff.mp hcaptures
  refine ⟨m, hm, reports_paramsOf hcompile path.toList m fun mark hmark => ?_⟩
  obtain ⟨hle, hstop, -⟩ := taken_of_search hm hmark
  exact ⟨hle, hstop⟩

end Patterns

/-! ## Distinct names -/

theorem get?_eq_some_iff_of_distinct {params : Params}
    (h : (params.entries.map Prod.fst).Nodup) (name value : String) :
    params.get? name = some value ↔ (name, value) ∈ params.entries := by
  rw [Params.get?, lookup_reverse, lookupLast_eq_lookup h, lookup_eq_some_iff_mem h]

/-- The parameters that a route accepts a request with have distinct names. -/
theorem distinct_of_routeAnswer [SizeLimit] {types : MatchTypes}
    {methods template path request : String}
    {params : Params}
    (h : routeAnswer types methods template path request = .ok (some params)) :
    (params.entries.map Prod.fst).Nodup := by
  have hempty : (Params.empty.entries.map Prod.fst).Nodup := List.nodup_nil
  have hpattern : patternAnswer types template path = .ok (some params) →
      (params.entries.map Prod.fst).Nodup := by
    intro hanswer
    obtain ⟨c, hcompile, hcaptures⟩ := exists_of_patternAnswer hanswer
    obtain ⟨_, -, hreports⟩ := exists_reports_of_captures hcompile hcaptures
    exact hreports.distinct
  unfold routeAnswer at h
  split at h
  · cases h
  · split at h
    · cases h
      exact hempty
    · split at h
      · exact hpattern h
      · split at h
        · split at h <;> cases h
          exact hempty
        · split at h
          · exact hpattern h
          · cases h

theorem distinct_of_matchRequest [SizeLimit] {τ : Type} {t : Table τ}
    {url request : String} {hit : Hit τ}
    (h : t.matchRequest url request = some hit) :
    (hit.params.entries.map Prod.fst).Nodup := by
  obtain ⟨path, -, hhit⟩ := Option.bind_eq_some_iff.mp h
  obtain ⟨_, -, hanswer⟩ := Table.exists_of_firstHit hhit
  exact distinct_of_routeAnswer hanswer

/-! ## On the command line -/

/-- A JSON object that is printed for a route is read as one with every parameter. -/
theorem documentOf?_hitValue {hit : Hit String}
    (hdistinct : (hit.params.entries.map Prod.fst).Nodup) :
    ∃ entries : List (Document × Document),
      Json.documentOf? (hitValue hit).pretty.toList =
        some ⟨.table [(.text "name", (hit.route.name.map Document.text).getD .null),
          (.text "params", .table entries), (.text "target", .text hit.route.target)], []⟩ ∧
      entries.Perm (hit.params.entries.map fun (name, value) => (.text name, .text value)) := by
  refine ⟨hit.params.toDictionary.entries.map fun (name, value) => (.text name, .text value),
    ?_, (Dictionary.perm_entries_ofList hdistinct).map _⟩
  rw [Json.documentOf?_pretty, hitValue]
  cases hit.route.name <;>
    simp [Json.Value.document, Json.documentsOf_eq_map]

theorem RouteFile.keeps_load [SizeLimit] (owners : Owners) (files : Files)
    (path : String) :
    Keeps owners (RouteFile.load files path) fun _ => True := by
  unfold RouteFile.load
  split
  · exact keeps_pure trivial
  · split
    · exact keeps_pure trivial
    · split
      · exact keeps_pure trivial
      · exact (keeps_note _).bind fun _ _ => keeps_pure trivial

namespace Invocation

variable [SizeLimit]

/-- The storage of the router of a command belongs to the match types of the router. -/
theorem grows_router (owners : Owners) (files : Files) (vars : Variables)
    (i : Invocation) :
    Grows owners (i.router files vars) fun owners' answer =>
      ∀ r, answer = .ok r → r.matcher.Owns owners' := by
  unfold Invocation.router
  have hload : Grows owners (RouteFile.load files i.path) fun _ _ => True :=
    (RouteFile.keeps_load owners files i.path).grows fun _ h => h
  refine hload.bind fun more loaded _ => ?_
  cases loaded with
  | error e => exact grows_pure nofun
  | ok file =>
    refine (Router.grows_ofRouteFile _ (RouterSettings.ofVariables vars) file).bind
      fun later built hbuilt => ?_
    cases built with
    | error e => exact grows_pure nofun
    | ok r =>
      refine grows_pure fun r' heq => ?_
      cases heq
      have howns := hbuilt.2 r rfl
      cases i.base with
      | none => exact howns
      | some base => exact howns

/-- What is printed for a request, as lines or as JSON. -/
def printedFor (method url : String) (asJson : Bool) : Option (Hit String) → Printed
  | none => ([if asJson then "null" else s!"no match: {method} {url}"], .noMatch)
  | some hit => (if asJson then [(hitValue hit).pretty] else hitLines hit, .success)

theorem perform_find (r : Router String) (method url : String) (asJson : Bool)
    (s : Session) :
    (perform r (.find method url asJson) s).1 =
      .ok (printedFor method url asJson (r.matchRequest url method s).1) := by
  obtain ⟨found, s', hfound⟩ : ∃ found s', r.matchRequest url method s = (found, s') := ⟨_, _, rfl⟩
  rw [perform, Router.bind_of_eq hfound, hfound]
  cases found with
  | none => rfl
  | some hit => rfl

/-- A command whose method can be one carries out its task with the router. -/
theorem run_of_router {files : Files} {vars : Variables} {i : Invocation} {s s' : Session}
    {built : Except CommandError (Router String)}
    (hvalid : invalidMethod? i.task = none) :
    i.router files vars s = (built, s') → run files vars i s =
      (match built with
        | .error e => pure (.error e)
        | .ok r => perform r i.task : Action (Except CommandError Printed)) s' := by
  intro hbuilt
  unfold run
  rw [hvalid]
  exact Router.bind_of_eq hbuilt

/-- Looking for the route of a request ends in one error or finds one route, or
none, however it is printed. -/
theorem run_find (files : Files) (vars : Variables) (base : Option String)
    (path method url : String) (s : Session) :
    ∃ found : Except CommandError (Option (Hit String)),
      (∀ hit, found = .ok (some hit) → (hit.params.entries.map Prod.fst).Nodup) ∧
      ∀ asJson, (run files vars ⟨base, path, .find method url asJson⟩ s).1 =
        found.map (printedFor method url asJson) := by
  cases hmethod : isMethod method with
  | false =>
    refine ⟨.error (.invalidMethod method), nofun, fun asJson => ?_⟩
    have hinvalid : invalidMethod? (.find method url asJson) = some method := by
      rw [invalidMethod?, hmethod]
      rfl
    unfold run
    rw [show invalidMethod? (Invocation.mk base path _).task = some method from hinvalid]
    rfl
  | true =>
    have hvalid : ∀ asJson, invalidMethod? (.find method url asJson) = none := fun asJson => by
      rw [invalidMethod?, hmethod]
      rfl
    -- the router does not depend on how the answer is printed
    obtain ⟨built, s', hbuilt⟩ : ∃ built s',
        Invocation.router files vars ⟨base, path, .list⟩ s = (built, s') := ⟨_, _, rfl⟩
    have hrouter : ∀ asJson, Invocation.router files vars
        ⟨base, path, .find method url asJson⟩ s = (built, s') := fun _ => hbuilt
    obtain ⟨more, howns, hfaithful⟩ :=
      grows_router _ files vars ⟨base, path, .list⟩ s (faithful_unowned s)
    rw [hbuilt] at howns hfaithful
    cases built with
    | error e =>
      refine ⟨.error e, nofun, fun asJson => ?_⟩
      rw [run_of_router (hvalid asJson) (hrouter asJson)]
      rfl
    | ok r =>
      obtain ⟨hanswer, -⟩ := Router.keeps_matchRequest (howns r rfl) url method s' hfaithful
      refine ⟨.ok (r.matchRequest url method s').1, ?_, fun asJson => ?_⟩
      · intro hit hhit
        rw [hanswer] at hhit
        exact distinct_of_matchRequest (Except.ok.inj hhit)
      · rw [run_of_router (hvalid asJson) (hrouter asJson)]
        exact perform_find r method url asJson s'

end Invocation

/-! ## Nothing is lost -/

/-- Of a template of any kind that compiles and a path that it matches: the
groups of the pattern have increasing numbers and distinct names, and by the
marks of the match, which is a way through the pattern, each name that is
reported has what its own group took last, and those of groups without a mark
are missing. So every pair is found under its name and kept in a dictionary. And
where the command that looks for a request prints parameters as lines, the text
that it prints instead as JSON is read as an object with the same ones. -/
theorem captures_lossless [SizeLimit] {types : MatchTypes} {template : String}
    {c : CompiledPattern}
    (hcompile : compileTemplate types template = .ok c) {path : String} {params : Params}
    (hcaptures : c.captures path = some params) :
    (c.groupNames = c.expr.groups.filterMap CaptureGroup.name ∧ c.groupNames.Nodup ∧
      (c.expr.groups.map CaptureGroup.number).Pairwise (· < ·)) ∧
    (∃ m, Pattern.search c.expr path.toList = some m ∧
      (Pattern.on c.expr path.toList).Way ⟨m.start, []⟩ ⟨m.stop, m.marks⟩ ∧
      (∀ mark ∈ m.marks, ∃ group ∈ c.expr.groups, group.number = mark.group ∧
        (Pattern.on group.inner path.toList).Reaches mark.start mark.stop) ∧
      Reports c path.toList m.marks params) ∧
    (∀ name value, params.get? name = some value ↔ (name, value) ∈ params.entries) ∧
    params.toDictionary.entries.Perm params.entries ∧
    params.toDictionary.size = params.size ∧
    ∀ (files : Files) (vars : Variables) (base : Option String) (file method url : String)
      (s : Session) (lines : List String),
      (Invocation.run files vars ⟨base, file, .find method url false⟩ s).1 =
          .ok (lines, .success) →
        ∃ (hit : Hit String) (entries : List (Document × Document)) (object : String),
          lines = hitLines hit ∧ (hit.params.entries.map Prod.fst).Nodup ∧
          (Invocation.run files vars ⟨base, file, .find method url true⟩ s).1 =
            .ok ([object], .success) ∧
          Json.documentOf? object.toList =
            some ⟨.table [(.text "name", (hit.route.name.map Document.text).getD .null),
              (.text "params", .table entries), (.text "target", .text hit.route.target)], []⟩ ∧
          entries.Perm (hit.params.entries.map fun (name, value) => (.text name, .text value)) := by
  obtain ⟨hnumbers, hnames⟩ := numbered_of_compileTemplate hcompile
  obtain ⟨m, hm, hreports⟩ := exists_reports_of_captures hcompile hcaptures
  have hdictionary : params.toDictionary.entries.Perm params.entries :=
    Dictionary.perm_entries_ofList hreports.distinct
  refine ⟨⟨c.groupNames_eq, hnames, hnumbers⟩,
    ⟨m, hm, (way_of_search hm).1, fun mark hmark => (taken_of_search hm hmark).2.2, hreports⟩,
    get?_eq_some_iff_of_distinct hreports.distinct, hdictionary, hdictionary.length_eq, ?_⟩
  intro files vars base file method url s lines hlines
  obtain ⟨found, hdistinct, hrun⟩ := Invocation.run_find files vars base file method url s
  rw [hrun] at hlines
  obtain ⟨hit?, rfl, hprinted⟩ : ∃ hit?, found = .ok hit? ∧
      Invocation.printedFor method url false hit? = (lines, .success) := by
    cases found with
    | error e => cases hlines
    | ok hit? => exact ⟨hit?, rfl, Except.ok.inj hlines⟩
  cases hit? with
  | none => cases hprinted
  | some hit =>
    cases hprinted
    obtain ⟨entries, hobject, hperm⟩ := documentOf?_hitValue (hdistinct hit rfl)
    exact ⟨hit, entries, _, rfl, hdistinct hit rfl, hrun true, hobject, hperm⟩

/-- A match type with a positional group and a named one that takes no part, and
a route file with this type: only the parameter of the block is reported, and it
is printed both ways. -/
theorem captures_lossless_minor :
    let types := MatchTypes.builtIn.extend [("v", "([0-9])(?P<minor>x)?")]
    let files : Files := fun _ => .ok ("match_types.v = '([0-9])(?P<minor>x)?'\n" ++
      "[[routes]]\nmethod = 'GET'\npath = '/[v:id]/[a:rest]?'\ntarget = 't'")
    let find (asJson : Bool) : Invocation := ⟨none, "r.toml", .find "GET" "/7" asJson⟩
    (∃ c params, compileTemplate types "/[v:id]/[a:rest]?" = .ok c ∧
      c.captures "/7" = some params ∧ c.groupNames = ["id", "minor", "rest"] ∧
      c.groupNames.Nodup ∧ params.get? "id" = some "7" ∧ params.toDictionary.size = 1) ∧
    ∃ (hit : Hit String) (object : String),
      hitLines hit = ["target: t", "name: -", "template: /[v:id]/[a:rest]?", "param id: 7"] ∧
      (Invocation.run files (fun _ => none) (find true) .start).1 = .ok ([object], .success) := by
  intro types files find
  have hall : (compileTemplate types "/[v:id]/[a:rest]?").map
      (fun c => (c.captures "/7", c.groupNames)) =
        .ok (some ⟨[("id", "7")]⟩, ["id", "minor", "rest"]) := by decide +kernel
  have hlines : (Invocation.run files (fun _ => none) (find false) .start).1 = .ok
      (["target: t", "name: -", "template: /[v:id]/[a:rest]?", "param id: 7"], .success) := by
    decide +kernel
  obtain ⟨c, hcompile, hc⟩ : ∃ c, compileTemplate types "/[v:id]/[a:rest]?" = .ok c ∧
      (c.captures "/7", c.groupNames) = (some ⟨[("id", "7")]⟩, ["id", "minor", "rest"]) := by
    cases hcompile : compileTemplate types "/[v:id]/[a:rest]?" with
    | error e =>
      rw [hcompile] at hall
      cases hall
    | ok c =>
      rw [hcompile] at hall
      exact ⟨c, rfl, Except.ok.inj hall⟩
  obtain ⟨hcaptures, hnames⟩ := Prod.mk.inj hc
  obtain ⟨⟨-, hdistinct, -⟩, -, hget, -, hsize, hprinted⟩ :=
    captures_lossless hcompile hcaptures
  obtain ⟨hit, -, object, heq, -, hobject, -⟩ := hprinted files _ none _ _ _ .start _ hlines
  exact ⟨⟨c, _, hcompile, hcaptures, hnames, hdistinct,
    (hget _ _).mpr (List.mem_singleton.mpr rfl), hsize⟩, hit, object, heq.symm, hobject⟩

end UrlRouting
