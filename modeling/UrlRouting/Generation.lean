import UrlRouting.Params
import UrlRouting.RouteError
import UrlRouting.Template.Reader
import UrlRouting.Template.Written

/-!
# Generating URLs

A URL is the base path followed by the template with its blocks filled in. A
block without a value disappears if it is optional and otherwise stays as it is
written. Raw patterns and templates without a bracket are not filled in at all.
-/

namespace UrlRouting

/-- A template that is a regular expression as it stands, behind its `@`. -/
def isRaw (template : String) : Bool :=
  template.toList.head? == some '@'

/-- A template with at least one opening bracket. -/
def hasBracket (template : String) : Bool :=
  template.toList.contains '['

/-- What stands for a block in the URL. -/
def Block.filled (b : Block) (value : Option String) : List Char :=
  match value with
  | some text => (b.lead.map Lead.char).toList ++ text.toList
  | none => if b.isOptional then [] else b.written

/-- What stands for a segment in the URL. -/
def Segment.filled (lookup : String → Option String) : Segment → List Char
  | .literal text => text.toList
  | .block b => b.filled (b.name?.bind lookup)

/-- The segments with their blocks filled in. -/
def fill (lookup : String → Option String) (segments : List Segment) : List Char :=
  segments.flatMap (Segment.filled lookup)

/-- The URL of a template under a base path. -/
def generateUrl {σ : Type} [ParamSource σ] (base template : String) (params : σ) :
    Except RouteError String :=
  if isRaw template || !hasBracket template then .ok (base ++ template)
  else
    match readTemplate template with
    | .error defect => .error (.malformedTemplate template defect)
    | .ok segments =>
      .ok (base ++ String.ofList (fill (ParamSource.lookup params) segments))

end UrlRouting
