import UrlRouting.Yaml.Scalar
import UrlRouting.Yaml.Token

/-!
# Reading tokens

A place of a text is read token by token. What stands before a colon is a key only
once the colon is met, so the start of every token that may be a key is kept; the
colon must follow on the same line. Blocks are opened by a deeper column and closed
by a lower one.
-/

namespace UrlRouting.Yaml

/-- The start of a token that may be a key. -/
structure KeyStart where
  token : Nat
  index : Nat
  line : Nat
  column : Nat
  /-- A key is due at the column of its block. -/
  required : Bool
deriving DecidableEq, Repr

/-- What was read so far. -/
structure Scan where
  cursor : Cursor
  /-- The column of the open block, -1 outside every block. -/
  indent : Int
  /-- The columns of the blocks around it. -/
  indents : List Int
  /-- Whether a key or a block may start here. -/
  keyAllowed : Bool
  /-- A possible key for the block and for each open flow collection, the innermost
  first. -/
  keys : List (Option KeyStart)
  tokens : Array Token

namespace Scan

def start (text : List Char) : Scan := ⟨Cursor.start text, -1, [], true, [none], #[]⟩

def inFlow (s : Scan) : Bool := s.keys.length > 1

def emit (s : Scan) (t : Token) : Scan := { s with tokens := s.tokens.push t }

def allowKey (s : Scan) (allowed : Bool) : Scan := { s with keyAllowed := allowed }

def skip (s : Scan) (n : Nat) : Scan := { s with cursor := s.cursor.skip n }

/-- Gives up the possible key of the innermost level, unless a key is due. -/
def dropKey (s : Scan) : Option Scan :=
  match s.keys with
  | some k :: rest => if k.required then none else some { s with keys := none :: rest }
  | _ => some s

/-- Gives up every possible key that is too far back. -/
def dropFarKeys (s : Scan) : Option Scan := do
  let keys ← s.keys.mapM fun
    | none => some none
    | some k =>
      if k.line < s.cursor.line || k.index + 1024 < s.cursor.index then
        if k.required then none else some none
      else some (some k)
  return { s with keys := keys }

/-- Keeps the start of a token that may be a key. -/
def keepKey (s : Scan) : Option Scan :=
  if !s.keyAllowed then some s
  else do
    let s ← s.dropKey
    let c := s.cursor
    let required := !s.inFlow && s.indent = Int.ofNat c.column
    let k : KeyStart := ⟨s.tokens.size, c.index, c.line, c.column, required⟩
    return { s with keys := some k :: s.keys.tail }

/-- Opens a block if the column is deeper than that of the open block. Its token goes
before the token of number `place`. -/
def openBlock (s : Scan) (column place : Nat) (t : Token) : Scan :=
  if s.inFlow || Int.ofNat column ≤ s.indent then s
  else
    { s with
      indent := column
      indents := s.indent :: s.indents
      tokens := s.tokens.insertIdxIfInBounds place t }

/-- Closes every block whose column is beyond this one. -/
def closeBlocks (s : Scan) (column : Int) : Scan :=
  if s.inFlow then s
  else
    let columns := s.indent :: s.indents
    let closed := (columns.takeWhile (column < ·)).length
    { s with
      indent := (columns.drop closed).headD (-1)
      indents := (columns.drop closed).tail
      tokens := s.tokens ++ Array.replicate closed Token.blockEnd }

/-- Passes over blanks, comments and line breaks. A tab may not stand where a block
may start. -/
def skipGap : Nat → Scan → Scan
  | 0, s => s
  | fuel + 1, s =>
    let c := s.cursor.skipWhile fun x => x = ' ' || (x = '\t' && (s.inFlow || !s.keyAllowed))
    let c := if c.head? = some '#' then c.skipWhile fun _ => true else c
    if c.head?.any isBreak then
      skipGap fuel { s with cursor := c.readBreak.2, keyAllowed := s.keyAllowed || !s.inFlow }
    else { s with cursor := c }

/-- Opens a block here if one may start; in a flow collection nothing is needed. -/
def openBlockHere (s : Scan) (t : Token) : Option Scan :=
  if s.inFlow then some s
  else if s.keyAllowed then some (s.openBlock s.cursor.column s.tokens.size t)
  else none

/-- Reads the colon that makes a key of what stands before it, or that has no such key
before it. -/
def readColon (s : Scan) : Option Scan :=
  match s.keys with
  | some k :: rest =>
    let s := { s with keys := none :: rest, tokens := s.tokens.insertIdxIfInBounds k.token .key }
    some (((s.openBlock k.column k.token .blockMapping).allowKey false).emit .value |>.skip 1)
  | _ => do
    let s ← s.openBlockHere .blockMapping
    return ((s.allowKey (!s.inFlow)).emit .value).skip 1

/-- Reads a token that may be a key. -/
def readKeyToken (s : Scan) (read : Cursor → Option (Token × Cursor)) : Option Scan := do
  let s ← s.keepKey
  let (t, c) ← read s.cursor
  return { ((s.allowKey false).emit t) with cursor := c }

def readPlainToken (s : Scan) : Option Scan := do
  let s ← s.keepKey
  let (text, broken, c) ←
    readPlain s.inFlow (s.indent + 1) (s.cursor.rest.length + 1) [] Gap.none s.cursor
  return { ((s.allowKey broken).emit (.scalar text true)) with cursor := c }

def readBlockToken (s : Scan) (literal : Bool) : Option Scan := do
  let s ← s.dropKey
  let (text, c) ← readBlock literal s.indent (s.cursor.skip 1)
  return { ((s.allowKey true).emit (.scalar text false)) with cursor := c }

def openFlow (s : Scan) (t : Token) : Option Scan := do
  let s ← s.keepKey
  return ({ ((s.allowKey true).emit t) with keys := none :: s.keys }).skip 1

def closeFlow (s : Scan) (t : Token) : Option Scan := do
  let s ← s.dropKey
  let keys := if s.inFlow then s.keys.tail else s.keys
  return ({ ((s.allowKey false).emit t) with keys := keys }).skip 1

/-- Closes all blocks, before a directive or a document indicator. -/
def closeAll (s : Scan) : Option Scan := do
  let s ← (s.closeBlocks (-1)).dropKey
  return s.allowKey false

/-- The characters that cannot start a plain scalar by themselves. -/
def indicators : List Char :=
  ['-', '?', ':', ',', '[', ']', '\x7b', '\x7d', '#', '&', '*', '!', '|', '>', '\'', '"', '%', '@',
    '\x60']

/-- Whether a plain scalar starts with a character, before what is next. -/
def startsPlain (inFlow : Bool) (x : Char) (next : Option Char) : Bool :=
  (!isBlank x && !indicators.contains x) || (x = '-' && !next.any isBlank) ||
    (!inFlow && (x = '?' || x = ':') && !endsWord next)

/-- Reads the token that starts here with `x`, before `rest`. -/
def readToken (s : Scan) (x : Char) (rest : List Char) : Option Scan :=
  let alone := endsWord rest.head?
  match x with
  | '[' => s.openFlow .flowSequence
  | '\x7b' => s.openFlow .flowMapping
  | ']' => s.closeFlow .flowSequenceEnd
  | '\x7d' => s.closeFlow .flowMappingEnd
  | ',' => do return (((← s.dropKey).allowKey true).emit .flowEntry).skip 1
  | '*' => s.readKeyToken fun c => (readAnchorName (c.skip 1)).map fun (n, c) => (.reference n, c)
  | '&' => s.readKeyToken fun c => (readAnchorName (c.skip 1)).map fun (n, c) => (.anchor n, c)
  | '!' => s.readKeyToken (readTag s.inFlow)
  | '\'' => s.readKeyToken fun c =>
    (readQuoted true (c.rest.length + 1) [] (c.skip 1)).map fun (t, c) => (.scalar t false, c)
  | '"' => s.readKeyToken fun c =>
    (readQuoted false (c.rest.length + 1) [] (c.skip 1)).map fun (t, c) => (.scalar t false, c)
  | _ =>
    if x = '-' && alone then do
      let s ← (← s.openBlockHere .blockSequence).dropKey
      return ((s.allowKey true).emit .blockEntry).skip 1
    else if x = '?' && (s.inFlow || alone) then do
      let s ← (← s.openBlockHere .blockMapping).dropKey
      return ((s.allowKey (!s.inFlow)).emit .key).skip 1
    else if x = ':' && (s.inFlow || alone) then s.readColon
    else if x = '|' && !s.inFlow then s.readBlockToken true
    else if x = '>' && !s.inFlow then s.readBlockToken false
    else if startsPlain s.inFlow x rest.head? then s.readPlainToken
    else none

/-- Reads the next token, with what it opens and closes; `none` as the second part
tells that the text has ended. -/
def step (s : Scan) : Option (Scan × Bool) := do
  let s ← (s.skipGap (s.cursor.rest.length + 1)).dropFarKeys
  let s := s.closeBlocks s.cursor.column
  match s.cursor.rest with
  | [] => return (← s.closeAll, true)
  | x :: rest =>
    let s ←
      if x = '%' && s.cursor.column = 0 then do
        let s ← s.closeAll
        let (t, c) ← readDirective (s.cursor.skip 1)
        pure { s.emit t with cursor := c }
      else if s.cursor.atDocumentMark then do
        let s ← s.closeAll
        pure ((s.emit (if x = '-' then .documentStart else .documentEnd)).skip 3)
      else s.readToken x rest
    return (s, false)

/-- Reads up to the end. -/
def run : Nat → Scan → Option Scan
  | 0, s => some s
  | fuel + 1, s => do
    let (s, ended) ← s.step
    if ended then return s else run fuel s

end Scan

/-- The tokens of a text; every one of them takes a character at least. -/
def tokensOf? (text : List Char) : Option (List Token) := do
  return (← (Scan.start text).run (text.length + 2)).tokens.toList

end UrlRouting.Yaml
