/-!
# Places in a YAML text

A cursor is what is left of a text, with the place reached: how many characters lie
before it, the line, and the column in the line.
-/

namespace UrlRouting.Yaml

def isBreak (c : Char) : Bool :=
  c = '\n' || c = '\r' || c = '\x85' || c = '\u2028' || c = '\u2029'

def isBlank (c : Char) : Bool :=
  c = ' ' || c = '\t'

/-- Whether a place is at a blank, at a line break or at the end. -/
def endsWord (next : Option Char) : Bool :=
  next.all fun c => isBlank c || isBreak c

/-- A character of names and of words after a percent sign. -/
def isNameChar (c : Char) : Bool :=
  c.isAlphanum || c = '_' || c = '-'

structure Cursor where
  rest : List Char
  index : Nat
  line : Nat
  column : Nat
deriving DecidableEq, Repr

namespace Cursor

def start (text : List Char) : Cursor := ⟨text, 0, 0, 0⟩

def head? (c : Cursor) : Option Char := c.rest.head?

/-- The place `n` characters farther on the same line. -/
def skip (c : Cursor) (n : Nat) : Cursor :=
  ⟨c.rest.drop n, c.index + n, c.line, c.column + n⟩

/-- The start of the next line, and the characters that the line break stands for. -/
def readBreak (c : Cursor) : List Char × Cursor :=
  match c.rest with
  | '\r' :: '\n' :: rest => (['\n'], ⟨rest, c.index + 2, c.line + 1, 0⟩)
  | x :: rest =>
    if isBreak x then
      (if x = '\u2028' || x = '\u2029' then [x] else ['\n'], ⟨rest, c.index + 1, c.line + 1, 0⟩)
    else ([], c)
  | [] => ([], c)

/-- Passes over the characters on the line that satisfy `f`, and gives them. -/
def spanWhile (c : Cursor) (f : Char → Bool) : List Char × Cursor :=
  let taken := c.rest.takeWhile fun x => f x && !isBreak x
  (taken, c.skip taken.length)

def skipWhile (c : Cursor) (f : Char → Bool) : Cursor :=
  (c.spanWhile f).2

/-- Whether a document indicator stands here, at the start of a line. -/
def atDocumentMark (c : Cursor) : Bool :=
  c.column = 0 &&
    match c.rest with
    | '-' :: '-' :: '-' :: rest => endsWord rest.head?
    | '.' :: '.' :: '.' :: rest => endsWord rest.head?
    | _ => false

end Cursor

end UrlRouting.Yaml
