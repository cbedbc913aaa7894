/-!
# Route templates

A template is literal text with bracket blocks in it, for instance
`/users/[i:id].[:format]?`. A block names the match type of its value and may
carry a label under which the value is captured. A `/` or `.` directly before
the bracket belongs to the block, so that an optional block takes it along.
-/

namespace UrlRouting

/-- The character directly before a block that belongs to it. -/
inductive Lead where
  | slash
  | dot
deriving DecidableEq, Repr

def Lead.char : Lead → Char
  | .slash => '/'
  | .dot => '.'

def Lead.ofChar? : Char → Option Lead
  | '/' => some .slash
  | '.' => some .dot
  | _ => none

/-- One bracket block. The label is what follows the colon: absent without a
colon, and empty when nothing follows it. `start` and `stop` are the byte range
of the block in its template, lead and question mark included. -/
structure Block where
  lead : Option Lead
  typeName : String
  label : Option String
  isOptional : Bool
  start : Nat
  stop : Nat
deriving DecidableEq, Repr

/-- The name under which the value is captured; an empty label names nothing. -/
def Block.name? (b : Block) : Option String :=
  b.label.filter (· ≠ "")

inductive Segment where
  | literal (text : String)
  | block (b : Block)
deriving DecidableEq, Repr

def Segment.block? : Segment → Option Block
  | .literal _ => none
  | .block b => some b

/-- The blocks of a template, in order. -/
def blocksOf (segments : List Segment) : List Block :=
  segments.filterMap Segment.block?

/-- The capture names of a template, in order. -/
def namesOf (segments : List Segment) : List String :=
  (blocksOf segments).filterMap Block.name?

/-- What makes a template malformed. -/
inductive Flaw where
  | unmatchedClose
  | unclosedOpen
  | nestedOpen
  | secondColon
deriving DecidableEq, Repr

def Flaw.reason : Flaw → String
  | .unmatchedClose => "unmatched ']'"
  | .unclosedOpen => "unclosed '['"
  | .nestedOpen => "nested '[' inside a block"
  | .secondColon => "more than one ':' in a block"

/-- A flaw and the byte offset of the character at fault. -/
structure Defect where
  position : Nat
  flaw : Flaw
deriving DecidableEq, Repr

theorem Lead.ofChar?_char (l : Lead) : Lead.ofChar? l.char = some l := by
  cases l <;> rfl

theorem Lead.ofChar?_eq_some_iff {c : Char} {l : Lead} :
    Lead.ofChar? c = some l ↔ c = l.char := by
  constructor
  · intro h
    unfold Lead.ofChar? at h
    split at h <;> simp_all [Lead.char] <;> subst h <;> rfl
  · rintro rfl
    exact Lead.ofChar?_char l

end UrlRouting
