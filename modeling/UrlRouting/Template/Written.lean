import UrlRouting.Template.Basic
import UrlRouting.Text.Bytes

/-!
# The written form of a template

Every segment has one written form, and a template is the concatenation of
those of its segments.
-/

namespace UrlRouting

/-- What stands between the brackets. -/
def Block.inner (b : Block) : List Char :=
  b.typeName.toList ++
    match b.label with
    | none => []
    | some name => ':' :: name.toList

/-- Lead, brackets with the inner text, and the question mark of an optional
block. -/
def Block.written (b : Block) : List Char :=
  (b.lead.map Lead.char).toList ++ '[' :: b.inner ++
    (if b.isOptional then [']', '?'] else [']'])

def Segment.written : Segment → List Char
  | .literal text => text.toList
  | .block b => b.written

/-- The text of a list of segments. -/
def writtenOf (segments : List Segment) : List Char :=
  segments.flatMap Segment.written

@[simp] theorem writtenOf_nil : writtenOf [] = [] := rfl

@[simp] theorem writtenOf_cons (s : Segment) (rest : List Segment) :
    writtenOf (s :: rest) = s.written ++ writtenOf rest := by
  simp [writtenOf]

@[simp] theorem writtenOf_append (xs ys : List Segment) :
    writtenOf (xs ++ ys) = writtenOf xs ++ writtenOf ys := by
  simp [writtenOf]

/-- The last segment is written last. -/
theorem writtenOf_reverse_cons (s : Segment) (done : List Segment) :
    writtenOf (s :: done).reverse = writtenOf done.reverse ++ s.written := by
  simp

/-- A block takes up at least the two brackets. -/
theorem two_le_byteCount_written (b : Block) : 2 ≤ byteCount b.written := by
  have hopen : ('[' : Char).utf8Size = 1 := rfl
  have hclose : (']' : Char).utf8Size = 1 := rfl
  have hmark : ('?' : Char).utf8Size = 1 := rfl
  unfold Block.written
  cases b.isOptional <;> simp [hopen, hclose, hmark] <;> omega

end UrlRouting
