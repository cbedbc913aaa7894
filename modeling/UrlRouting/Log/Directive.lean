import UrlRouting.Log.Event
import UrlRouting.Text.Blank
import UrlRouting.Text.Split
import UrlRouting.Unicode.Letter

/-!
# Filter directives

A directive, such as `target[span{field=value}]=level`, sets the level up to which
events of a target are shown. Every part of it may be missing. A directive that
names a span, or a value of a field, concerns spans alone and shows no event.
-/

namespace UrlRouting

/-- A directive: `level` is `none` if nothing is to be shown. -/
structure Directive where
  target : Option (List Char)
  span : Option (List Char)
  /-- Field names, each with whether a value is asked for. -/
  fields : List (List Char × Bool)
  level : Option Level
deriving DecidableEq, Repr

/-- The level of a word or of a digit; the inner `none` shows nothing. -/
def levelOfWord? (word : List Char) : Option (Option Level) :=
  let digits := if word.head? = some '+' then word.tail else word
  if !digits.isEmpty && digits.all Char.isDigit then
    match numberValue 10 digits with
    | some 0 => some none
    | some n => (Level.all.find? fun level => level.rank = n).map some
    | none => none
  else if sameIgnoringCase word ['o', 'f', 'f'] then some none
  else (Level.ofName? word).map some

/-- Where the reader of a directive stands. The numbers are the positions at which
the part began. -/
inductive DirectiveZone where
  | start
  | levelOrTarget (began : Nat)
  | span (began : Nat)
  | field (began : Nat)
  | fields
  | target
  | level (began : Nat)
deriving DecidableEq, Repr

/-- The characters of a text between two positions. -/
def slice (text : List Char) (start stop : Nat) : List Char :=
  (text.drop start).take (stop - start)

/-- Reads a field: its name, and whether a value is asked for. -/
def fieldOf? (text : List Char) : Option (List Char × Bool) :=
  if text = [] then none
  else some (text.takeWhile (· ≠ '='), text.contains '=')

/-- A character that a level or a target may start with. -/
def startsDirective (c : Char) : Bool :=
  c = '-' || c = ':' || c = '_' || Unicode.isAlphanumeric c

/-- One character of a directive, at position `i`. -/
def Directive.step (text : List Char) (d : Directive) (i : Nat) (c : Char) :
    DirectiveZone → Option (Directive × DirectiveZone)
  | .start =>
    if c = '[' then some (d, .span (i + 1))
    else if startsDirective c then some (d, .levelOrTarget i)
    else none
  | .levelOrTarget began =>
    if c = '=' then some ({ d with target := some (slice text began i) }, .level (i + 1))
    else if c = '[' then some ({ d with target := some (slice text began i) }, .span (i + 1))
    else some (d, .levelOrTarget began)
  | .span began =>
    if c = ']' then some ({ d with span := some (slice text began i) }, .target)
    else if c = '\x7b' then
      let span := slice text began i
      some ({ d with span := if span = [] then none else some span }, .field (i + 1))
    else some (d, .span began)
  | .field began =>
    if c = '\x7d' || c = ',' then
      (fieldOf? (slice text began i)).map fun field =>
        ({ d with fields := d.fields ++ [field] }, if c = ',' then .field (i + 1) else .fields)
    else some (d, .field began)
  | .fields => if c = ']' then some (d, .target) else none
  | .target => if c = '=' then some (d, .level (i + 1)) else none
  | .level began => some (d, .level began)

/-- The directive at the end of its text. -/
def Directive.finish (text : List Char) (d : Directive) : DirectiveZone → Option Directive
  | .levelOrTarget began =>
    let word := slice text began text.length
    match levelOfWord? word with
    | some level => some { d with target := none, level := level }
    | none => some { d with target := some word }
  | .level began =>
    let word := slice text began text.length
    if word = [] then some d
    else (levelOfWord? word).map fun level => { d with level := level }
  | .target => some d
  | _ => none

/-- Goes through the characters of a directive from position `i` on. -/
def Directive.run (text : List Char) (d : Directive) (zone : DirectiveZone) (i : Nat) :
    List Char → Option Directive
  | [] => d.finish text zone
  | c :: rest => do
    let (d, zone) ← d.step text i c zone
    run text d zone (i + 1) rest

/-- Reads a directive. Without a level it shows everything. -/
def Directive.ofText? (text : List Char) : Option Directive :=
  Directive.run text ⟨none, none, [], some .trace⟩ .start 0 (trim text)

/-- Whether a directive concerns events. -/
def Directive.isStatic (d : Directive) : Bool :=
  d.span.isNone && d.fields.all (!·.2)

end UrlRouting
