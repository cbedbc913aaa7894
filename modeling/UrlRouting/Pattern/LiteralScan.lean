import UrlRouting.Text.Bytes

/-!
# Scanning the literal beginning of a template

Before a pattern is run, the beginning of its template is compared with the path
character by character, up to the first character that may mean more than
itself. A slash of the template is taken to agree with anything.
-/

namespace UrlRouting

/-- Whether the pattern zone begins at a character, seen together with the one
after it. -/
def opensZone (current : Char) (next : Option Char) : Bool :=
  ['[', '(', '.'].contains current ||
    next.any fun c => ['?', '+', '*', '{'].contains c

inductive LiteralScan where
  /-- The literal beginning, of this many bytes, agrees with the path. -/
  | compatible (literalLength : Nat)
  /-- The template character at this byte offset disagrees. -/
  | mismatch (offset : Nat)
deriving DecidableEq, Repr

/-- The scan from byte `offset` of the template on. -/
def scanFrom (offset : Nat) : List Char → List Char → LiteralScan
  | [], _ => .compatible offset
  | c :: template, path =>
    if opensZone c template.head? then .compatible offset
    else if c ≠ '/' ∧ path.head? ≠ some c then .mismatch offset
    else scanFrom (offset + c.utf8Size) template path.tail

def scanLiteral (template path : List Char) : LiteralScan :=
  scanFrom 0 template path

example : scanLiteral ['/', 'a', '[', ':', ']'] ['x', 'a'] = .compatible 2 := by decide
example : scanLiteral ['a', '/', 'b', '['] ['a', 'x', 'c'] = .mismatch 2 := by decide

end UrlRouting
