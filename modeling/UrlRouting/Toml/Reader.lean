import UrlRouting.Toml.Scalar
import UrlRouting.Toml.Text
import UrlRouting.Toml.Tree

/-!
# Reading TOML

A text is read line by line: a key with its value goes into the table that is open, a
header opens another one. Lists and inline tables may go over several lines and end
with a comma.
-/

namespace UrlRouting.Toml

/-- How deeply lists and inline tables may be nested. -/
def nestingLimit : Nat := 80

/-- A character that ends a scalar without quotes. -/
def endsScalar (c : Char) : Bool :=
  [' ', '\t', '\r', '\n', ',', ']', '\x7d', '#', '=', '[', '\x7b', '"', '\''].contains c

/-- Reads a scalar without quotes; a time may follow a date behind a blank. -/
def readScalar (cs : List Char) : Option (Document × List Char) :=
  let word := cs.takeWhile (!endsScalar ·)
  let rest := cs.drop word.length
  let time :=
    match rest with
    | ' ' :: tail =>
      let time := tail.takeWhile (!endsScalar ·)
      if skipDate? word = some [] && (time.head?).any Char.isDigit then
        some (word ++ ' ' :: time, tail.drop time.length)
      else none
    | _ => none
  let (word, rest) := time.getD (word, rest)
  (scalarOf? word).map (·, rest)

mutual

/-- Reads a value; every nested value and every item takes one unit of `fuel`. -/
def readValue (depth : Nat) : Nat → List Char → Option (Document × List Char)
  | 0, _ => none
  | fuel + 1, cs => do
    match ← readQuoted true cs with
    | some (s, rest) => return (.text s, rest)
    | none =>
      match cs with
      | '[' :: rest =>
        if depth ≥ nestingLimit then none
        else readItems (depth + 1) fuel [] (← skipLines (rest.length + 1) rest)
      | '\x7b' :: rest =>
        if depth ≥ nestingLimit then none
        else readInline (depth + 1) fuel [] (← skipLines (rest.length + 1) rest)
      | cs => readScalar cs

/-- Reads the items of a list, from one of them or the end on. -/
def readItems (depth : Nat) : Nat → List Document → List Char →
    Option (Document × List Char)
  | 0, _, _ => none
  | fuel + 1, held, cs =>
    match cs with
    | ']' :: rest => some (.list held.reverse, rest)
    | cs => do
      let (item, rest) ← readValue depth fuel cs
      match ← skipLines (rest.length + 1) rest with
      | ',' :: rest => readItems depth fuel (item :: held) (← skipLines (rest.length + 1) rest)
      | ']' :: rest => return (.list (item :: held).reverse, rest)
      | _ => none

/-- Reads the entries of an inline table, from one of them or the end on. -/
def readInline (depth : Nat) : Nat → Entries → List Char → Option (Document × List Char)
  | 0, _, _ => none
  | fuel + 1, entries, cs =>
    match cs with
    | '\x7d' :: rest => some (.table (documentsOf entries), rest)
    | cs => do
      let (key, rest) ← readKey (cs.length + 1) cs
      let ('=' :: rest) := rest | none
      let (d, rest) ← readValue depth fuel (skipBlanks rest)
      let entries ← setValue key d .header entries
      match ← skipLines (rest.length + 1) rest with
      | ',' :: rest => readInline depth fuel entries (← skipLines (rest.length + 1) rest)
      | '\x7d' :: rest => return (.table (documentsOf entries), rest)
      | _ => none

end

/-- What was read so far: the root table, and the path of the open one. -/
structure Reading where
  root : Entries
  here : List String

/-- Writes a value into the open table. -/
def Reading.set (r : Reading) (key : List String) (d : Document) : Option Reading := do
  let root ← descend false (setValue key d) .header r.here r.root
  return { r with root := root }

/-- Reads what stands on a line, up to the blanks behind it. -/
def readLine (r : Reading) : List Char → Option (Reading × List Char)
  | '[' :: '[' :: rest => do
    let (key, rest) ← readKey (rest.length + 1) rest
    let (']' :: ']' :: rest) := rest | none
    return (⟨← openListed key r.root, key⟩, rest)
  | '[' :: rest => do
    let (key, rest) ← readKey (rest.length + 1) rest
    let (']' :: rest) := rest | none
    return (⟨← openTable key r.root, key⟩, rest)
  | cs => do
    let (key, rest) ← readKey (cs.length + 1) cs
    let ('=' :: rest) := rest | none
    let rest := skipBlanks rest
    let (d, rest) ← readValue 0 (2 * rest.length + 2) rest
    return (← r.set key d, rest)

/-- Reads line after line. -/
def readLines : Nat → Reading → List Char → Option Reading
  | 0, _, _ => none
  | fuel + 1, r, cs => do
    let cs := skipBlanks cs
    let bare := cs = [] || cs.head? = some '#' || (lineEnd? cs).isSome
    let (r, rest) ← if bare then some (r, cs) else readLine r cs
    let rest ← skipComment? (skipBlanks rest)
    match rest, lineEnd? rest with
    | [], _ => return r
    | _, some rest => readLines fuel r rest
    | _, none => none

/-- The document that a text writes; a byte order mark may come first. Every line
takes a character at least, or else is the last. -/
def documentOf? (text : List Char) : Option AnchoredDocument := do
  let cs := if text.head? = some '\ufeff' then text.tail else text
  let r ← readLines (cs.length + 1) ⟨[], []⟩ cs
  return ⟨.table (documentsOf r.root), []⟩

end UrlRouting.Toml
