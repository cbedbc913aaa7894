import UrlRouting.Text.Letters
import UrlRouting.Yaml.Cursor

/-!
# Scalars

Plain scalars, scalars in quotes and block scalars. A single line break inside a
scalar is folded into a blank, more of them lose the first; only a literal block
keeps its line breaks as they are.
-/

namespace UrlRouting.Yaml

/-- Blanks and line breaks between two words of a scalar. Blanks count only as long
as no line break was met. -/
structure Gap where
  blanks : List Char
  firstBreak : List Char
  moreBreaks : List Char
  broken : Bool
deriving DecidableEq, Repr

def Gap.none : Gap := ⟨[], [], [], false⟩

/-- The text that a gap leaves between two words. -/
def Gap.text (g : Gap) : List Char :=
  if !g.broken then g.blanks
  else if g.firstBreak.head? = some '\n' then
    if g.moreBreaks = [] then [' '] else g.moreBreaks
  else g.firstBreak ++ g.moreBreaks

/-- Reads blanks and line breaks. `indent` is the column up to which no tab may stand
at the start of a line, if there is such a rule. -/
def readGap (indent : Option Int) : Nat → Gap → Cursor → Option (Gap × Cursor)
  | 0, g, c => some (g, c)
  | fuel + 1, g, c =>
    match c.head? with
    | .none => some (g, c)
    | some x =>
      if isBlank x then
        if g.broken && x = '\t' && indent.any (Int.ofNat c.column < ·) then Option.none
        else
          let blanks := if g.broken then g.blanks else g.blanks ++ [x]
          readGap indent fuel { g with blanks := blanks } (c.skip 1)
      else if isBreak x then
        let (text, c) := c.readBreak
        if g.broken then readGap indent fuel { g with moreBreaks := g.moreBreaks ++ text } c
        else readGap indent fuel ⟨[], text, g.moreBreaks, true⟩ c
      else some (g, c)

/-- The characters that end a plain scalar in a flow collection. -/
def flowIndicators : List Char := [',', '[', ']', '\x7b', '\x7d']

/-- Reads a word of a plain scalar, the last character first. -/
def readPlainWord (inFlow : Bool) : Nat → List Char → Cursor → Option (List Char × Cursor)
  | 0, held, c => some (held, c)
  | fuel + 1, held, c =>
    match c.rest with
    | [] => some (held, c)
    | x :: rest =>
      if isBlank x || isBreak x then some (held, c)
      else if inFlow && x = ':' && rest.head?.any fun y => y = '?' || flowIndicators.contains y then
        none
      else if (x = ':' && endsWord rest.head?) || (inFlow && flowIndicators.contains x) then
        some (held, c)
      else readPlainWord inFlow fuel (x :: held) (c.skip 1)

/-- Reads a plain scalar word by word. The answer tells whether a line break was met
behind the last word. -/
def readPlain (inFlow : Bool) (indent : Int) : Nat → List Char → Gap → Cursor →
    Option (List Char × Bool × Cursor)
  | 0, held, g, c => some (held, g.broken, c)
  | fuel + 1, held, g, c =>
    if c.atDocumentMark || c.head? = some '#' then some (held, g.broken, c)
    else do
      let (word, c) ← readPlainWord inFlow (c.rest.length + 1) [] c
      let held := if word = [] then held else held ++ g.text ++ word.reverse
      let g := if word = [] then g else Gap.none
      if c.head?.any fun x => isBlank x || isBreak x then
        let (g, c) ← readGap (some indent) (c.rest.length + 1) g c
        if !inFlow && Int.ofNat c.column < indent then return (held, g.broken, c)
        else readPlain inFlow indent fuel held g c
      else return (held, g.broken, c)

/-- The characters that an escaped character stands for. -/
def escapeOf? : Char → Option Char
  | '0' => some '\x00'
  | 'a' => some '\x07'
  | 'b' => some '\x08'
  | 't' => some '\t'
  | '\t' => some '\t'
  | 'n' => some '\n'
  | 'v' => some '\x0b'
  | 'f' => some '\x0c'
  | 'r' => some '\r'
  | 'e' => some '\x1b'
  | ' ' => some ' '
  | '"' => some '"'
  | '/' => some '/'
  | '\\' => some '\\'
  | 'N' => some '\x85'
  | '_' => some '\xa0'
  | 'L' => some '\u2028'
  | 'P' => some '\u2029'
  | _ => none

/-- How many hexadecimal digits follow the letter of a numeric escape. -/
def codeLength? : Char → Option Nat
  | 'x' => some 2
  | 'u' => some 4
  | 'U' => some 8
  | _ => none

/-- Reads a word of a quoted scalar, the last character first. The answer tells
whether the word ended with an escaped line break. -/
def readQuotedWord (single : Bool) :
    Nat → List Char → Cursor → Option (List Char × Bool × Cursor)
  | 0, held, c => some (held, false, c)
  | fuel + 1, held, c =>
    match c.rest with
    | [] => some (held, false, c)
    | x :: rest =>
      if isBlank x || isBreak x then some (held, false, c)
      else if single then
        if x = '\'' then
          if rest.head? = some '\'' then readQuotedWord single fuel ('\'' :: held) (c.skip 2)
          else some (held, false, c)
        else readQuotedWord single fuel (x :: held) (c.skip 1)
      else if x = '"' then some (held, false, c)
      else if x = '\\' then
        match rest with
        | [] => none
        | e :: digits =>
          if isBreak e then some (held, true, (c.skip 1).readBreak.2)
          else
            match codeLength? e with
            | some count =>
              let code := digits.take count
              if code.length < count then none
              else do
                let n ← numberValue 16 code
                if n.isValidChar then
                  readQuotedWord single fuel (Char.ofNat n :: held) (c.skip (count + 2))
                else none
            | none => do
              let y ← escapeOf? e
              readQuotedWord single fuel (y :: held) (c.skip 2)
      else readQuotedWord single fuel (x :: held) (c.skip 1)

/-- Reads a scalar in quotes behind the opening one. -/
def readQuoted (single : Bool) : Nat → List Char → Cursor → Option (List Char × Cursor)
  | 0, _, _ => none
  | fuel + 1, held, c =>
    if c.atDocumentMark || c.rest = [] then none
    else do
      let (word, joined, c) ← readQuotedWord single (c.rest.length + 1) [] c
      let held := held ++ word.reverse
      if c.head? = some (if single then '\'' else '"') then return (held, c.skip 1)
      else
        let (g, c) ← readGap none (c.rest.length + 1) ⟨[], [], [], joined⟩ c
        readQuoted single fuel (held ++ g.text) c

/-- How a block scalar ends: with one line break, with none, or with all of them. -/
inductive Chomping where
  | clip
  | strip
  | keep
deriving DecidableEq, Repr

/-- Reads the signs behind the start of a block scalar: how it ends, and by how much
its lines are indented, or 0 if that is to be found out. -/
def readBlockHeader (c : Cursor) : Option (Chomping × Nat × Cursor) :=
  let chompingOf (x : Char) : Option Chomping :=
    if x = '+' then some .keep else if x = '-' then some .strip else none
  let digitOf (x : Char) : Option Nat :=
    if x.isDigit then some (x.toNat - '0'.toNat) else none
  match c.rest with
  | [] => some (.clip, 0, c)
  | x :: rest =>
    match chompingOf x, digitOf x with
    | some chomping, _ =>
      match rest.head?.bind digitOf with
      | some 0 => none
      | some n => some (chomping, n, c.skip 2)
      | none => some (chomping, 0, c.skip 1)
    | none, some 0 => none
    | none, some n =>
      match rest.head?.bind chompingOf with
      | some chomping => some (chomping, n, c.skip 2)
      | none => some (.clip, n, c.skip 1)
    | none, none => some (.clip, 0, c)

/-- Reads the blanks and the empty lines before a line of a block scalar. `indent` is
0 as long as it is unknown; the widest line of blanks then counts. -/
def readBlockBreaks (indent : Nat) : Nat → Nat → List Char → Cursor →
    Option (Nat × List Char × Cursor)
  | 0, widest, held, c => some (widest, held, c)
  | fuel + 1, widest, held, c =>
    let wanted := if indent = 0 then c.rest.length else indent - c.column
    let blanks := (c.rest.take wanted).takeWhile (· = ' ')
    let c := c.skip blanks.length
    let widest := max widest c.column
    if (indent = 0 || c.column < indent) && c.head? = some '\t' then none
    else if c.head?.any isBreak then
      let (text, c) := c.readBreak
      readBlockBreaks indent fuel widest (held ++ text) c
    else some (widest, held, c)

/-- Reads the lines of a block scalar. `lastBreak` is the break of the line before,
`breaks` are those of the empty lines behind it, and `afterBlank` tells whether that
line began with a blank. -/
def readBlockLines (literal : Bool) (indent : Nat) (chomping : Chomping) :
    Nat → List Char → List Char → List Char → Bool → Cursor → Option (List Char × Cursor)
  | 0, _, _, _, _, _ => none
  | fuel + 1, held, lastBreak, breaks, afterBlank, c =>
    if c.column = indent && c.rest ≠ [] then do
      let startsBlank := c.head?.any isBlank
      let folds := !literal && lastBreak.head? = some '\n' && !afterBlank && !startsBlank
      let between :=
        if folds then (if breaks = [] then [' '] else breaks) else lastBreak ++ breaks
      let (line, c) := c.spanWhile fun _ => true
      let (lastBreak, c) := c.readBreak
      let (_, breaks, c) ← readBlockBreaks indent (c.rest.length + 1) 0 [] c
      readBlockLines literal indent chomping fuel (held ++ between ++ line) lastBreak breaks
        startsBlank c
    else
      let ending :=
        match chomping with
        | .strip => []
        | .clip => lastBreak
        | .keep => lastBreak ++ breaks
      some (held ++ ending, c)

/-- Reads a block scalar behind its sign. `parent` is the column of the block around
it, or -1. -/
def readBlock (literal : Bool) (parent : Int) (c : Cursor) :
    Option (List Char × Cursor) := do
  let (chomping, more, c) ← readBlockHeader c
  let c := c.skipWhile isBlank
  let c := if c.head? = some '#' then c.skipWhile fun _ => true else c
  if c.head?.any (!isBreak ·) then none
  else
    let c := c.readBreak.2
    let given : Nat := if more = 0 then 0 else (max parent 0).toNat + more
    let (widest, breaks, c) ← readBlockBreaks given (c.rest.length + 1) 0 [] c
    let indent := if given ≠ 0 then given else max (max widest (parent + 1).toNat) 1
    readBlockLines literal indent chomping (c.rest.length + 2) [] [] breaks false c

end UrlRouting.Yaml
