import UrlRouting.Template.Basic
import UrlRouting.Text.Bytes

/-!
# Reading a template

A template is read in one pass, character by character. Between two characters
the reader is in one of five zones: in literal text, inside a block before or
after its colon, past a second colon, or directly behind a closing bracket,
where a question mark still belongs to the block. Reading a text in two parts
is the same as reading it at once, because a pass is a fold.
-/

namespace UrlRouting

/-- Where the reader stands. Texts that are still growing are kept with their
last character first. -/
inductive Zone where
  /-- In literal text that began behind the last block. -/
  | literal (held : List Char)
  /-- Behind the opening bracket at byte `opened`, before any colon. -/
  | typeName (opened : Nat) (lead : Option Lead) (name : List Char)
  /-- Behind the one colon of the block. -/
  | label (opened : Nat) (lead : Option Lead) (name : String) (held : List Char)
  /-- Behind a second colon, which stands at byte `second`. -/
  | overfull (opened : Nat) (second : Nat)
  /-- Directly behind the closing bracket. -/
  | closed (b : Block)
deriving DecidableEq, Repr

/-- The state of a pass: the byte offset reached, the finished segments with the
last one first, and the zone. -/
structure Scan where
  position : Nat
  done : List Segment
  zone : Zone
deriving DecidableEq, Repr

def Scan.start : Scan := ⟨0, [], .literal []⟩

/-- Literal text becomes a segment unless it is empty. -/
def closeLiteral (held : List Char) (done : List Segment) : List Segment :=
  if held = [] then done else .literal (String.ofList held.reverse) :: done

/-- The lead of a block and the literal text that stays before it. -/
def splitLead : List Char → Option Lead × List Char
  | [] => (none, [])
  | c :: held =>
    match Lead.ofChar? c with
    | some lead => (some lead, held)
    | none => (none, c :: held)

def Lead.width : Option Lead → Nat
  | none => 0
  | some _ => 1

/-- One character in literal text. -/
def stepLiteral (position : Nat) (done : List Segment) (held : List Char) (c : Char) :
    Except Defect Scan :=
  if c = ']' then .error ⟨position, .unmatchedClose⟩
  else if c = '[' then
    let (lead, kept) := splitLead held
    .ok ⟨position + 1, closeLiteral kept done, .typeName position lead []⟩
  else .ok ⟨position + c.utf8Size, done, .literal (c :: held)⟩

/-- The block that a closing bracket at byte `position` completes. -/
def completeBlock (opened position : Nat) (lead : Option Lead) (name : String)
    (label : Option String) : Block :=
  ⟨lead, name, label, false, opened - Lead.width lead, position + 1⟩

def Block.asOptional (b : Block) : Block :=
  { b with isOptional := true, stop := b.stop + 1 }

/-- One character of a pass. -/
def Scan.step (s : Scan) (c : Char) : Except Defect Scan :=
  match s.zone with
  | .literal held => stepLiteral s.position s.done held c
  | .closed b =>
    if c = '?' then .ok ⟨s.position + 1, .block b.asOptional :: s.done, .literal []⟩
    else stepLiteral s.position (.block b :: s.done) [] c
  | .typeName opened lead name =>
    if c = '[' then .error ⟨s.position, .nestedOpen⟩
    else if c = ']' then
      let b := completeBlock opened s.position lead (String.ofList name.reverse) none
      .ok ⟨s.position + 1, s.done, .closed b⟩
    else if c = ':' then
      .ok ⟨s.position + 1, s.done, .label opened lead (String.ofList name.reverse) []⟩
    else .ok ⟨s.position + c.utf8Size, s.done, .typeName opened lead (c :: name)⟩
  | .label opened lead name held =>
    if c = '[' then .error ⟨s.position, .nestedOpen⟩
    else if c = ']' then
      let b := completeBlock opened s.position lead name (some (String.ofList held.reverse))
      .ok ⟨s.position + 1, s.done, .closed b⟩
    else if c = ':' then .ok ⟨s.position + 1, s.done, .overfull opened s.position⟩
    else .ok ⟨s.position + c.utf8Size, s.done, .label opened lead name (c :: held)⟩
  | .overfull opened second =>
    if c = '[' then .error ⟨s.position, .nestedOpen⟩
    else if c = ']' then .error ⟨second, .secondColon⟩
    else .ok ⟨s.position + c.utf8Size, s.done, .overfull opened second⟩

/-- The segments at the end of the text. -/
def Scan.finish (s : Scan) : Except Defect (List Segment) :=
  match s.zone with
  | .literal held => .ok (closeLiteral held s.done).reverse
  | .closed b => .ok (Segment.block b :: s.done).reverse
  | .typeName opened _ _ => .error ⟨opened, .unclosedOpen⟩
  | .label opened _ _ _ => .error ⟨opened, .unclosedOpen⟩
  | .overfull opened _ => .error ⟨opened, .unclosedOpen⟩

/-- The segments of a text, or what is wrong with it. -/
def readSegments (text : List Char) : Except Defect (List Segment) :=
  text.foldlM Scan.step Scan.start >>= Scan.finish

/-- Reading a template: its segments, or its first defect. -/
def readTemplate (template : String) : Except Defect (List Segment) :=
  readSegments template.toList

example : readSegments ['/', '[', 'i', ']', '?'] =
    .ok [.block ⟨some .slash, "i", none, true, 0, 5⟩] := by rfl
example : readSegments ['a', '[', ':', 'x', ':', ']'] = .error ⟨4, .secondColon⟩ := by rfl
example : readSegments ['é', ']'] = .error ⟨2, .unmatchedClose⟩ := by rfl

end UrlRouting
