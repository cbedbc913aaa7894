import UrlRouting.Document.Basic
import UrlRouting.Text.Letters

/-!
# Reading JSON

JSON as it is defined, without leniency: one value, blanks around it, no comments.
A text with half of a surrogate pair is well formed but stands for no string, so it
is read as a value that is no text.
-/

namespace UrlRouting.Json

def isBlank (c : Char) : Bool :=
  c = ' ' || c = '\t' || c = '\n' || c = '\r'

def skipBlanks (cs : List Char) : List Char :=
  cs.dropWhile isBlank

/-- The letters that may follow a backslash, but for the one of code units. -/
def escapeOf? : Char → Option Char
  | '"' => some '"'
  | '\\' => some '\\'
  | '/' => some '/'
  | 'b' => some '\x08'
  | 'f' => some '\x0c'
  | 'n' => some '\n'
  | 'r' => some '\r'
  | 't' => some '\t'
  | _ => none

/-- The number of four hexadecimal digits. -/
def unitOf? (a b c d : Char) : Option Nat :=
  numberValue 16 [a, b, c, d]

def isHighSurrogate (n : Nat) : Bool := 0xD800 ≤ n && n ≤ 0xDBFF

def isLowSurrogate (n : Nat) : Bool := 0xDC00 ≤ n && n ≤ 0xDFFF

/-- The character of a surrogate pair. -/
def charOfUnits (high low : Nat) : Char :=
  Char.ofNat ((high - 0xD800) * 1024 + (low - 0xDC00) + 0x10000)

/-- Reads a string behind its opening quote. `high` is a first half of a surrogate
pair whose second half has to follow; `sound` tells that no half was left alone. -/
def readString (held : List Char) (high : Option Nat) (sound : Bool) :
    List Char → Option (Option String × List Char)
  | [] => none
  | '"' :: rest =>
    some (if sound && high.isNone then some (String.ofList held.reverse) else none, rest)
  | '\\' :: 'u' :: a :: b :: c :: d :: rest => do
    let n ← unitOf? a b c d
    match high with
    | some h =>
      if isLowSurrogate n then
        readString (charOfUnits h n :: held) none sound rest
      else readString held none false rest
    | none =>
      if isHighSurrogate n then readString held (some n) sound rest
      else if isLowSurrogate n then readString held none false rest
      else readString (Char.ofNat n :: held) none sound rest
  | '\\' :: e :: rest => do
    let c ← escapeOf? e
    readString (c :: held) none (sound && high.isNone) rest
  | c :: rest =>
    if c.toNat < 0x20 then none
    else readString (c :: held) none (sound && high.isNone) rest

/-- Passes over one digit or more. -/
def skipDigits? (cs : List Char) : Option (List Char) :=
  match cs with
  | c :: rest => if c.isDigit then some (rest.dropWhile Char.isDigit) else none
  | [] => none

/-- Passes over the exponent of a number, if there is one. -/
def skipExponent? : List Char → Option (List Char)
  | 'e' :: '+' :: rest => skipDigits? rest
  | 'e' :: '-' :: rest => skipDigits? rest
  | 'e' :: rest => skipDigits? rest
  | 'E' :: '+' :: rest => skipDigits? rest
  | 'E' :: '-' :: rest => skipDigits? rest
  | 'E' :: rest => skipDigits? rest
  | rest => some rest

/-- Passes over the digits, the fraction and the exponent of a number. -/
def skipUnsigned? (cs : List Char) : Option (List Char) := do
  let rest ← match cs with
    | '0' :: rest => some rest
    | cs => skipDigits? cs
  let rest ← match rest with
    | '.' :: rest => skipDigits? rest
    | rest => some rest
  skipExponent? rest

/-- Passes over a number. -/
def skipNumber? : List Char → Option (List Char)
  | '-' :: rest => skipUnsigned? rest
  | cs => skipUnsigned? cs

/-- A string as a document. -/
def documentOfString (s : Option String) : Document :=
  (s.map Document.text).getD .other

mutual

/-- Reads a value; every nested value takes one unit of `fuel`. -/
def readValue : Nat → List Char → Option (Document × List Char)
  | 0, _ => none
  | fuel + 1, cs =>
    match skipBlanks cs with
    | '"' :: rest => do
      let (s, rest) ← readString [] none true rest
      return (documentOfString s, rest)
    | '[' :: rest =>
      match skipBlanks rest with
      | ']' :: rest => some (.list [], rest)
      | rest => readItems fuel [] rest
    | '\x7b' :: rest =>
      match skipBlanks rest with
      | '\x7d' :: rest => some (.table [], rest)
      | rest => readEntries fuel [] rest
    | 't' :: 'r' :: 'u' :: 'e' :: rest => some (.other, rest)
    | 'f' :: 'a' :: 'l' :: 's' :: 'e' :: rest => some (.other, rest)
    | 'n' :: 'u' :: 'l' :: 'l' :: rest => some (.null, rest)
    | cs => (skipNumber? cs).map (.other, ·)

/-- Reads the items of a list, the first of which must be there. -/
def readItems : Nat → List Document → List Char → Option (Document × List Char)
  | 0, _, _ => none
  | fuel + 1, held, cs => do
    let (item, rest) ← readValue fuel cs
    match skipBlanks rest with
    | ',' :: rest => readItems fuel (item :: held) rest
    | ']' :: rest => return (.list (item :: held).reverse, rest)
    | _ => none

/-- Reads the entries of a table, the first of which must be there. -/
def readEntries : Nat → List (Document × Document) → List Char →
    Option (Document × List Char)
  | 0, _, _ => none
  | fuel + 1, held, cs => do
    let ('"' :: rest) := skipBlanks cs | none
    let (key, rest) ← readString [] none true rest
    let (':' :: rest) := skipBlanks rest | none
    let (value, rest) ← readValue fuel rest
    match skipBlanks rest with
    | ',' :: rest => readEntries fuel ((documentOfString key, value) :: held) rest
    | '\x7d' :: rest => return (.table ((documentOfString key, value) :: held).reverse, rest)
    | _ => none

end

/-- The document that a JSON text writes. Every unit of fuel reads a character. -/
def documentOf? (text : List Char) : Option AnchoredDocument := do
  let (d, rest) ← readValue (text.length + 1) text
  if skipBlanks rest = [] then return ⟨d, []⟩ else none

end UrlRouting.Json
