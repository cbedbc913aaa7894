import UrlRouting.MatchTypes
import UrlRouting.RouteError
import UrlRouting.Template.Reader

/-!
# The pattern text of a template

The regular expression of a template is anchored at both ends. Literal text
goes into it as it stands, so that it may itself be regular expression syntax. A
block becomes a group that holds its lead and, captured, the expression of its
match type.
-/

namespace UrlRouting

/-- The lead inside its group; a dot is escaped to mean itself. -/
def Lead.patternText : Lead → List Char
  | .slash => ['/']
  | .dot => ['\\', '.']

/-- The group of a block whose match type is `fragment`. -/
def Block.patternText (b : Block) (fragment : List Char) : List Char :=
  ['(', '?', ':'] ++ (b.lead.map Lead.patternText).getD [] ++ ['('] ++
    (match b.name? with
      | none => []
      | some name => ['?', 'P', '<'] ++ name.toList ++ ['>']) ++
    fragment ++ [')', ')'] ++ (if b.isOptional then ['?'] else [])

/-- The part of a segment, or the name of the match type that is missing. -/
def Segment.patternText (types : MatchTypes) : Segment → Except String (List Char)
  | .literal text => .ok text.toList
  | .block b =>
    match types.get? b.typeName with
    | none => .error b.typeName
    | some fragment => .ok (b.patternText fragment.toList)

/-- The parts of all segments in order, or the first missing match type. -/
def segmentsText (types : MatchTypes) : List Segment → Except String (List Char)
  | [] => .ok []
  | s :: rest => do
    let text ← s.patternText types
    let more ← segmentsText types rest
    return text ++ more

/-- The anchored pattern of a bracket template. A malformed template is reported
before a missing match type. -/
def patternText (types : MatchTypes) (template : String) : Except RouteError String :=
  match readTemplate template with
  | .error defect => .error (.malformedTemplate template defect)
  | .ok segments =>
    match segmentsText types segments with
    | .error typeName => .error (.unknownMatchType typeName template)
    | .ok text => .ok (String.ofList ('^' :: text ++ ['$']))

section

variable {types : MatchTypes} {segments : List Segment} {template : String}

/-- A pattern text is missing a type or is written. -/
theorem exists_segmentsText_iff :
    (∃ text, segmentsText types segments = .ok text) ↔
      ∀ b ∈ blocksOf segments, (types.get? b.typeName).isSome := by
  induction segments with
  | nil => exact ⟨fun _ => nofun, fun _ => ⟨[], rfl⟩⟩
  | cons segment rest ih =>
    have hrest : ∀ {first : List Char}, segment.patternText types = .ok first →
        ((∃ text, segmentsText types (segment :: rest) = .ok text) ↔
          ∃ text, segmentsText types rest = .ok text) := by
      intro first hfirst
      rw [segmentsText, hfirst]
      cases segmentsText types rest with
      | error typeName => exact ⟨nofun, nofun⟩
      | ok more => exact ⟨fun _ => ⟨_, rfl⟩, fun _ => ⟨_, rfl⟩⟩
    cases segment with
    | literal text => rw [hrest rfl, ih]; rfl
    | block b =>
      have hblocks : blocksOf (.block b :: rest) = b :: blocksOf rest := rfl
      rw [hblocks, List.forall_mem_cons]
      cases hget : types.get? b.typeName with
      | none =>
        have hfirst : (Segment.block b).patternText types = .error b.typeName := by
          rw [Segment.patternText, hget]
        refine ⟨fun ⟨text, htext⟩ => ?_, fun h => nomatch h.1⟩
        rw [segmentsText, hfirst] at htext
        cases htext
      | some fragment =>
        have hfirst : (Segment.block b).patternText types =
            .ok (b.patternText fragment.toList) := by
          rw [Segment.patternText, hget]
        rw [hrest hfirst, ih]
        exact ⟨fun h => ⟨rfl, h⟩, And.right⟩

theorem patternText_eq_ok_iff {text : String} :
    patternText types template = .ok text ↔
      ∃ segments inner, readTemplate template = .ok segments ∧
        segmentsText types segments = .ok inner ∧ text = String.ofList ('^' :: inner ++ ['$']) := by
  unfold patternText
  constructor
  · intro h
    split at h
    · cases h
    · next segments hread =>
      split at h
      · cases h
      · next inner hinner => exact ⟨segments, inner, hread, hinner, (Except.ok.inj h).symm⟩
  · rintro ⟨segments, inner, hread, hinner, rfl⟩
    simp only [hread, hinner]

end

end UrlRouting
