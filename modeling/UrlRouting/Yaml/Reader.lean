import UrlRouting.Document.Basic
import UrlRouting.Yaml.Tokens

/-!
# Reading YAML

The tokens of a text are put together to one document. An anchor gets the number of
names used before it; if one name is given to several nodes, numbers may meet, and a
number then stands for the node that starts last.
-/

namespace UrlRouting.Yaml

/-- What is left of the tokens, and what is known about names so far. -/
structure Building where
  rest : List Token
  /-- The handles of tags and what they stand for. -/
  handles : List (List Char × List Char)
  /-- The names of anchors with their numbers, the last one first. -/
  names : List (List Char × Nat)
  /-- How many nodes with an anchor have started. -/
  started : Nat
  /-- The nodes with an anchor: which one it was to start, the number of its name, and
  the node. -/
  anchored : List (Nat × Nat × Document)

/-- A step of putting tokens together. -/
abbrev Build (α : Type) := StateT Building Option α

namespace Build

def peek : Build (Option Token) := do
  return (← get).rest.head?

/-- Drops the next token. -/
def next : Build Unit :=
  modify fun s => { s with rest := s.rest.tail }

/-- Drops the next token if it is this one, and tells whether it was. -/
def accept (t : Token) : Build Bool := do
  if (← peek) = some t then
    next
    return true
  else return false

def expect (t : Token) : Build Unit := do
  if !(← accept t) then failure

/-- Whether the next token is one of these. -/
def isNext (ts : List Token) : Build Bool := do
  return (← peek).any ts.contains

/-- What stands in the place of a missing node. -/
def missing : Document := .plain "" .untagged

/-- The tag that stands for nothing. -/
def nullTag : String := "tag:yaml.org,2002:null"

/-- The tag that a handle and a suffix make. -/
def tagOf (handle suffix : List Char) : Build String := do
  if handle = [] then return String.ofList suffix
  else
    match (← get).handles.lookup handle with
    | some start => return String.ofList (start ++ suffix)
    | none => failure

/-- Reads the anchor and the tag before a node, in either order. -/
def properties : Build (Option (List Char) × Option String) := do
  let anchor? : Build (Option (List Char)) := do
    match ← peek with
    | some (.anchor name) => next; return some name
    | _ => return none
  let tag? : Build (Option String) := do
    match ← peek with
    | some (.tag handle suffix) => next; return some (← tagOf handle suffix)
    | _ => return none
  match ← anchor? with
  | some name => return (some name, ← tag?)
  | none =>
    let tag ← tag?
    return (← anchor?, tag)

/-- What a tag says about a plain scalar. -/
def plainTag : Option String → PlainTag
  | none => .untagged
  | some tag => if tag = nullTag then .null else .other

/-- A scalar with a tag. The tag that is only a mark of exclamation counts as none. -/
def scalarOf (text : List Char) (plain : Bool) (tag : Option String) : Document :=
  if plain then .plain (String.ofList text) (plainTag (tag.filter (· ≠ "!")))
  else .text (String.ofList text)

/-- Starts a node with an anchor, and gives its place and its number. -/
def register (name : List Char) : Build (Nat × Nat) := do
  let s ← get
  let known := (s.names.lookup name).isSome
  let number := s.names.length
  let names :=
    if known then s.names.map fun (x, n) => (x, if x = name then number else n)
    else (name, number) :: s.names
  set { s with names := names, started := s.started + 1 }
  return (s.started, number)

/-- Reads a node behind its anchor. -/
def anchoring (anchor : Option (List Char)) (node : Build Document) : Build Document := do
  match anchor with
  | none => node
  | some name =>
    let (place, number) ← register name
    let d ← node
    modify fun s => { s with anchored := (place, number, d) :: s.anchored }
    return d

mutual

/-- Reads a node. `block` tells whether a block may start, `indentless` whether the
items of a list may stand without a deeper column. Every call takes one unit of
fuel, and no more than two of them follow each other without a token. -/
def node (block indentless : Bool) : Nat → Build Document
  | 0 => failure
  | fuel + 1 => do
    match ← peek with
    | some (.reference name) =>
      next
      match (← get).names.lookup name with
      | some number => return .reference number
      | none => failure
    | _ =>
      let (anchor, tag) ← properties
      anchoring anchor do
        match ← peek with
        | some .blockEntry =>
          if indentless then indentlessItems fuel []
          else if anchor.isSome || tag.isSome then return .plain "" (plainTag tag)
          else failure
        | some (.scalar text plain) => next; return scalarOf text plain tag
        | some .flowSequence => next; flowItems fuel true []
        | some .flowMapping => next; flowEntries fuel true []
        | t =>
          if block && t = some .blockSequence then
            next
            blockItems fuel []
          else if block && t = some .blockMapping then
            next
            blockEntries fuel []
          else if anchor.isSome || tag.isSome then return .plain "" (plainTag tag)
          else failure

/-- Reads a node unless one of these tokens follows. -/
def nodeUnless (enders : List Token) (block indentless : Bool) : Nat → Build Document
  | 0 => failure
  | fuel + 1 => do
    if ← isNext enders then return missing else node block indentless fuel

/-- Reads the items of a list in a block of its own. -/
def blockItems : Nat → List Document → Build Document
  | 0, _ => failure
  | fuel + 1, held => do
    if ← accept .blockEntry then
      let item ← nodeUnless [.blockEntry, .blockEnd] true false fuel
      blockItems fuel (item :: held)
    else
      expect .blockEnd
      return .list held.reverse

/-- Reads the items of a list at the column of the table around it. -/
def indentlessItems : Nat → List Document → Build Document
  | 0, _ => failure
  | fuel + 1, held => do
    if ← accept .blockEntry then
      let item ← nodeUnless [.blockEntry, .key, .value, .blockEnd] true false fuel
      indentlessItems fuel (item :: held)
    else return .list held.reverse

/-- Reads the entries of a table in a block. -/
def blockEntries : Nat → List (Document × Document) → Build Document
  | 0, _ => failure
  | fuel + 1, held => do
    let enders := [.key, .value, .blockEnd]
    if ← accept .key then
      let key ← nodeUnless enders true true fuel
      let value ← if ← accept .value then nodeUnless enders true true fuel else pure missing
      blockEntries fuel ((key, value) :: held)
    else
      expect .blockEnd
      return .table held.reverse

/-- Reads the items of a list in brackets. An item may be a single pair. -/
def flowItems : Nat → Bool → List Document → Build Document
  | 0, _, _ => failure
  | fuel + 1, first, held => do
    if ← accept .flowSequenceEnd then return .list held.reverse
    else
      if !first then expect .flowEntry
      if ← accept .flowSequenceEnd then return .list held.reverse
      else if ← accept .key then
        let item ← singlePair fuel
        flowItems fuel false (item :: held)
      else
        let item ← node false false fuel
        flowItems fuel false (item :: held)

/-- Reads a pair that is an item of a list. If there is nothing between the question
mark and what ends the key, that token counts as read. -/
def singlePair : Nat → Build Document
  | 0 => failure
  | fuel + 1 => do
    let key ←
      if ← isNext [.value, .flowEntry, .flowSequenceEnd] then do
        next
        pure missing
      else node false false fuel
    let value ←
      if ← accept .value then nodeUnless [.flowEntry, .flowSequenceEnd] false false fuel
      else pure missing
    return .table [(key, value)]

/-- Reads the entries of a table in braces. An entry may be a lone key. -/
def flowEntries : Nat → Bool → List (Document × Document) → Build Document
  | 0, _, _ => failure
  | fuel + 1, first, held => do
    if ← accept .flowMappingEnd then return .table held.reverse
    else
      if !first then expect .flowEntry
      if ← accept .flowMappingEnd then return .table held.reverse
      else if ← accept .key then
        let key ← nodeUnless [.value, .flowEntry, .flowMappingEnd] false false fuel
        let value ←
          if ← accept .value then nodeUnless [.flowEntry, .flowMappingEnd] false false fuel
          else pure missing
        flowEntries fuel false ((key, value) :: held)
      else
        let key ← node false false fuel
        flowEntries fuel false ((key, missing) :: held)

end

/-- Takes in the directives at the start. The version may be given once, and a handle
too. -/
def directives (version : Bool) : Nat → Build Unit
  | 0 => failure
  | fuel + 1 => do
    match ← peek with
    | some (.versionDirective major minor) =>
      if version || major ≠ 1 || (minor ≠ 1 && minor ≠ 2) then failure
      else
        next
        directives true fuel
    | some (.tagDirective handle start) =>
      if ((← get).handles.lookup handle).isSome then failure
      else
        modify fun s => { s with rest := s.rest.tail, handles := (handle, start) :: s.handles }
        directives version fuel
    | _ => return ()

/-- The handles that need no directive. -/
def usualHandles : List (List Char × List Char) :=
  [(['!'], ['!']), (['!', '!'], "tag:yaml.org,2002:".toList)]

def isDirective : Token → Bool
  | .versionDirective _ _ => true
  | .tagDirective _ _ => true
  | _ => false

/-- Reads the only document of a text. Without a line of dashes it starts with its
first node. -/
def document (fuel : Nat) : Build Document := do
  let first ← peek
  let marked := first.any fun t => isDirective t || t = .documentStart
  directives false fuel
  modify fun s => { s with handles := s.handles ++ usualHandles }
  if marked then
    expect .documentStart
    let t ← peek
    if t.all fun t => isDirective t || t = .documentStart || t = .documentEnd then return missing
    else node true false fuel
  else if first.isNone then return missing
  else node true false fuel

/-- Passes over the marks of the end, behind which nothing may follow. -/
def ending : Nat → Build Unit
  | 0 => failure
  | fuel + 1 => do
    if ← accept .documentEnd then ending fuel
    else if (← peek).isSome then failure

end Build

/-- The nodes by the numbers of their anchors, the last one to start first. -/
def byNumber (anchored : List (Nat × Nat × Document)) : List (Nat × Document) :=
  (anchored.mergeSort fun a b => b.1 ≤ a.1).map (·.2)

/-- A character that a text may hold. -/
def isAllowed (c : Char) : Bool :=
  c = '\t' || c = '\n' || c = '\r' || (' ' ≤ c && c ≤ '~') || c = '\x85' ||
    ('\xa0' ≤ c && c ≠ '\ufeff' && c ≠ '\ufffe' && c ≠ '\uffff')

/-- The document that a YAML text writes; a byte order mark may come first. -/
def documentOf? (text : List Char) : Option AnchoredDocument := do
  let cs := if text.head? = some '\ufeff' then text.tail else text
  if !cs.all isAllowed then none
  else
    let tokens ← tokensOf? cs
    let fuel := 2 * tokens.length + 4
    let whole : Build Document := do
      let d ← Build.document fuel
      Build.ending fuel
      return d
    let (d, s) ← whole.run ⟨tokens, [], [], 0, []⟩
    return ⟨d, byNumber s.anchored⟩

end UrlRouting.Yaml
