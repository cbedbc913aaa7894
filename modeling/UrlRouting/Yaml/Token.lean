import UrlRouting.Text.Letters
import UrlRouting.Yaml.Cursor

/-!
# Tokens

The tokens of a YAML text. Where the indentation opens and closes blocks there are
tokens for it. Anchors, tags and directives are read here; the other tokens with a
text are scalars.
-/

namespace UrlRouting.Yaml

inductive Token where
  | versionDirective (major minor : Nat)
  | tagDirective (handle start : List Char)
  | documentStart
  | documentEnd
  | blockSequence
  | blockMapping
  | blockEnd
  | flowSequence
  | flowSequenceEnd
  | flowMapping
  | flowMappingEnd
  | blockEntry
  | flowEntry
  | key
  | value
  | reference (name : List Char)
  | anchor (name : List Char)
  /-- A tag; one between angle brackets has no handle. -/
  | tag (handle suffix : List Char)
  | scalar (text : List Char) (plain : Bool)
deriving DecidableEq, Repr

/-- Reads the name of an anchor. -/
def readAnchorName (c : Cursor) : Option (List Char × Cursor) :=
  let (name, c) := c.spanWhile isNameChar
  let ends := c.head?.all fun x =>
    isBlank x || isBreak x || ['?', ':', ',', ']', '\x7d', '%', '@', '\x60'].contains x
  if name ≠ [] && ends then some (name, c) else none

/-- The number of bytes in the character that a first byte starts. -/
def encodedLength? (first : Nat) : Option Nat :=
  if first < 0x80 then some 1
  else if first < 0xC0 then none
  else if first < 0xE0 then some 2
  else if first < 0xF0 then some 3
  else if first < 0xF8 then some 4
  else none

/-- Reads the bytes of a character behind the first one. -/
def readLaterBytes : Nat → List Char → Option (List Char × List Char)
  | 0, cs => some ([], cs)
  | count + 1, '%' :: a :: b :: rest => do
    let n ← numberValue 16 [a, b]
    if n < 0x80 || 0xC0 ≤ n then none
    else
      let (more, rest) ← readLaterBytes count rest
      return (Char.ofNat n :: more, rest)
  | _ + 1, _ => none

/-- Reads a character written as bytes behind percent signs. Each byte is given as
the character of its number. -/
def readEscapedBytes : List Char → Option (List Char × List Char)
  | '%' :: a :: b :: rest => do
    let n ← numberValue 16 [a, b]
    let length ← encodedLength? n
    let (more, rest) ← readLaterBytes (length - 1) rest
    return (Char.ofNat n :: more, rest)
  | _ => none

/-- A character of a tag. The indicators of flow collections are allowed only where a
tag stands between angle brackets or in a directive. -/
def isTagChar (anyChar : Bool) (c : Char) : Bool :=
  isNameChar c || [';', '/', '?', ':', '@', '&', '=', '+', '$', '.', '%', '!', '~', '*', '\'', '(',
    ')'].contains c || (anyChar && [',', '[', ']'].contains c)

/-- Reads the characters of a tag, the last one first. -/
def readTagChars (anyChar : Bool) : Nat → List Char → Cursor → Option (List Char × Cursor)
  | 0, held, c => some (held, c)
  | fuel + 1, held, c =>
    match c.rest with
    | [] => some (held, c)
    | x :: _ =>
      if !isTagChar anyChar x then some (held, c)
      else if x = '%' then do
        let (bytes, _) ← readEscapedBytes c.rest
        readTagChars anyChar fuel (bytes.reverse ++ held) (c.skip (3 * bytes.length))
      else readTagChars anyChar fuel (x :: held) (c.skip 1)

/-- Reads a text of tag characters that goes on from `head`. -/
def readTagText (anyChar : Bool) (head : List Char) (c : Cursor) :
    Option (List Char × Cursor) := do
  let (held, c) ← readTagChars anyChar (c.rest.length + 1) head.reverse c
  return (held.reverse, c)

/-- Reads the handle of a tag: a mark of exclamation, a name, and another mark if
there is one. -/
def readHandle (c : Cursor) : Option (List Char × Cursor) :=
  if c.head? ≠ some '!' then none
  else
    let (name, c) := (c.skip 1).spanWhile isNameChar
    if c.head? = some '!' then some ('!' :: name ++ ['!'], c.skip 1)
    else some ('!' :: name, c)

/-- Whether a handle is closed by a second mark. -/
def isClosedHandle (handle : List Char) : Bool :=
  handle.length > 1 && handle.getLast? = some '!'

/-- Reads a tag from its mark of exclamation on. -/
def readTag (inFlow : Bool) (c : Cursor) : Option (Token × Cursor) := do
  let (tag, c) ←
    if c.rest.tail.head? = some '<' then do
      let (suffix, c) ← readTagText true [] (c.skip 2)
      if suffix ≠ [] && c.head? = some '>' then some (Token.tag [] suffix, c.skip 1) else none
    else do
      let (handle, c) ← readHandle c
      if isClosedHandle handle then
        let (suffix, c) ← readTagText false [] c
        if suffix ≠ [] then some (Token.tag handle suffix, c) else none
      else
        let (suffix, c) ← readTagText false handle.tail c
        some (if suffix = [] then Token.tag [] ['!'] else Token.tag ['!'] suffix, c)
  if endsWord c.head? || (inFlow && c.head? = some ',') then return (tag, c) else none

/-- Reads a number of at most nine digits. -/
def readVersionNumber (c : Cursor) : Option (Nat × Cursor) := do
  let (digits, c) := c.spanWhile Char.isDigit
  if digits = [] || 9 < digits.length then none
  else return (← numberValue 10 digits, c)

/-- Reads a directive behind its percent sign, with the rest of its line. -/
def readDirective (c : Cursor) : Option (Token × Cursor) := do
  let (name, c) := c.spanWhile isNameChar
  if !endsWord c.head? then none
  else
    let c := c.skipWhile isBlank
    let (directive, c) ←
      match String.ofList name with
      | "YAML" => do
        let (major, c) ← readVersionNumber c
        if c.head? ≠ some '.' then none
        else
          let (minor, c) ← readVersionNumber (c.skip 1)
          some (Token.versionDirective major minor, c)
      | "TAG" => do
        let (handle, c) ← readHandle c
        if (handle ≠ ['!'] && !isClosedHandle handle) || !(c.head?.any isBlank) then none
        else
          let (start, c) ← readTagText true [] (c.skipWhile isBlank)
          if start ≠ [] && endsWord c.head? then some (Token.tagDirective handle start, c) else none
      | _ => none
    let c := c.skipWhile isBlank
    let c := if c.head? = some '#' then c.skipWhile fun _ => true else c
    if c.head?.all isBreak then return (directive, c.readBreak.2) else none

end UrlRouting.Yaml
