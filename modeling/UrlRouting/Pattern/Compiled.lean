import UrlRouting.Generation
import UrlRouting.Params
import UrlRouting.Pattern.Text
import UrlRouting.Regex.Reader
import UrlRouting.Regex.Search

/-!
# Compiled patterns

A template compiles to the expression that its pattern text writes. A raw template
is its own pattern text, anchored at both ends, and needs no match types. Matching
a path reports what the named groups took, in the order of the groups.
-/

namespace UrlRouting

/-- A template with its pattern, as text and as an expression. -/
structure CompiledPattern where
  template : String
  text : String
  expr : Regex.Pattern
deriving DecidableEq, Repr

/-- The pattern text of a raw template without its sign. -/
def rawText (raw : List Char) : List Char :=
  ['^', '(', '?', ':'] ++ raw ++ [')', '$']

/-- The pattern text of any template. -/
def anyPatternText (types : MatchTypes) (template : String) : Except RouteError String :=
  match template.toList with
  | '@' :: raw => .ok (String.ofList (rawText raw))
  | _ => patternText types template

theorem anyPatternText_of_not_raw {types : MatchTypes} {template : String}
    (h : isRaw template = false) :
    anyPatternText types template = patternText types template := by
  unfold anyPatternText
  split
  · next hlist =>
    rw [isRaw, hlist] at h
    cases h
  · rfl

variable [Regex.SizeLimit]

/-- Compiles a template under a table of match types. -/
def compileTemplate (types : MatchTypes) (template : String) :
    Except RouteError CompiledPattern :=
  match anyPatternText types template with
  | .error e => .error e
  | .ok text =>
    match Regex.Pattern.ofText? text.toList with
    | none => .error (.invalidPattern template text "")
    | some expr => .ok ⟨template, text, expr⟩

/-- A template compiles to the expression of its pattern text. -/
theorem compileTemplate_eq_ok_iff {types : MatchTypes} {template : String}
    {c : CompiledPattern} :
    compileTemplate types template = .ok c ↔
      ∃ text expr, anyPatternText types template = .ok text ∧
        Regex.Pattern.ofText? text.toList = some expr ∧ c = ⟨template, text, expr⟩ := by
  unfold compileTemplate
  constructor
  · intro h
    split at h
    · cases h
    · next text htext =>
      split at h
      · cases h
      · next expr hexpr => exact ⟨text, expr, htext, hexpr, (Except.ok.inj h).symm⟩
  · rintro ⟨text, expr, htext, hexpr, rfl⟩
    simp only [htext, hexpr]

/-- Whether a template compiles can be evaluated. -/
theorem exists_of_isOk_compileTemplate {types : MatchTypes} {template : String}
    (h : (compileTemplate types template).isOk = true) :
    ∃ c, compileTemplate types template = .ok c := by
  cases hcompile : compileTemplate types template with
  | ok c => exact ⟨c, rfl⟩
  | error e =>
    rw [hcompile] at h
    cases h

/-- A template that compiles can be read. -/
theorem exists_segments_of_compileTemplate {types : MatchTypes} {template : String}
    {c : CompiledPattern} (hraw : isRaw template = false)
    (h : compileTemplate types template = .ok c) :
    ∃ segments, readTemplate template = .ok segments := by
  cases hread : readTemplate template with
  | ok segments => exact ⟨segments, rfl⟩
  | error defect =>
    have htext : anyPatternText types template = .error (.malformedTemplate template defect) := by
      rw [anyPatternText_of_not_raw hraw, patternText, hread]
    rw [compileTemplate, htext] at h
    cases h

/-- A bracket template compiles to the expression of its segments between two
anchors. -/
theorem exists_inner_of_compileTemplate {types : MatchTypes} {template : String}
    {segments : List Segment} {c : CompiledPattern} (hraw : isRaw template = false)
    (hsegments : readTemplate template = .ok segments)
    (h : compileTemplate types template = .ok c) :
    ∃ inner, segmentsText types segments = .ok inner ∧
      Regex.Pattern.ofText? ('^' :: inner ++ ['$']) = some c.expr := by
  obtain ⟨text, e, htext, he, rfl⟩ := compileTemplate_eq_ok_iff.mp h
  rw [anyPatternText_of_not_raw hraw] at htext
  obtain ⟨_, inner, hread, hinner, rfl⟩ := patternText_eq_ok_iff.mp htext
  cases hsegments.symm.trans hread
  rw [String.toList_ofList] at he
  exact ⟨inner, hinner, he⟩

namespace CompiledPattern

/-- The names of the groups, in order. -/
def groupNames (c : CompiledPattern) : List String :=
  c.expr.namedGroups.map (·.2)

/-- What the named groups took of a path; groups that took no part are left out. -/
def paramsOf (c : CompiledPattern) (path : List Char) (m : Regex.Match) : Params :=
  ⟨c.expr.namedGroups.filterMap fun (number, name) =>
    (m.group? number).map fun (start, stop) =>
      (name, String.ofList ((path.drop start).take (stop - start)))⟩

/-- The named captures of a path, if the pattern matches it. -/
def captures (c : CompiledPattern) (path : String) : Option Params :=
  (Regex.Pattern.search c.expr path.toList).map (c.paramsOf path.toList)

def isMatch (c : CompiledPattern) (path : String) : Bool :=
  (Regex.Pattern.search c.expr path.toList).isSome

end CompiledPattern

end UrlRouting
