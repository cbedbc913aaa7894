/-!
# Documents

What the text formats have in common: texts, lists and tables, and values that are
none of these. A plain scalar, written without quotes, is a text that may also stand
for nothing. A reference stands for the node that carries an anchor.
-/

namespace UrlRouting

/-- What the tag of a plain scalar says about it. -/
inductive PlainTag where
  | untagged
  | null
  | other
deriving DecidableEq, Repr

inductive Document where
  | null
  | text (s : String)
  | plain (s : String) (tag : PlainTag)
  /-- A number, a truth value, a date or a text that cannot be read as one. -/
  | other
  | list (items : List Document)
  /-- Entries in order, repeated keys included. -/
  | table (entries : List (Document × Document))
  | reference (anchor : Nat)
deriving Repr

/-- A document with the nodes that its references stand for. -/
structure AnchoredDocument where
  root : Document
  anchored : List (Nat × Document)
deriving Repr

/-- How a list is read where a record is expected. -/
inductive RecordLists where
  /-- Not at all. -/
  | refused
  /-- Field by field, with no item left over. -/
  | exact
  /-- Field by field, whatever comes after the last field. -/
  | loose
deriving DecidableEq, Repr

namespace Document

/-- Follows a reference. -/
def resolve (anchored : List (Nat × Document)) : Document → Document
  | reference anchor => (anchored.lookup anchor).getD null
  | d => d

/-- The text of a document that is one. -/
def asText? (anchored : List (Nat × Document)) (d : Document) : Option String :=
  match d.resolve anchored with
  | text s => some s
  | plain s _ => some s
  | _ => none

/-- The words of a plain scalar that stand for nothing. -/
def nullWords : List String := ["null", "Null", "NULL", "~"]

/-- The text of a document that is one or stands for nothing. -/
def asOptionalText? (anchored : List (Nat × Document)) (d : Document) :
    Option (Option String) :=
  match d.resolve anchored with
  | null => some none
  | text s => some (some s)
  | plain s .untagged => some (if s = "" ∨ s ∈ nullWords then none else some s)
  | plain s .null => if s ∈ nullWords then some none else none
  | plain s .other => some (some s)
  | _ => none

/-- The items of a list; an empty plain scalar is an empty list. -/
def asList? (anchored : List (Nat × Document)) (d : Document) : Option (List Document) :=
  match d.resolve anchored with
  | list items => some items
  | plain "" _ => some []
  | _ => none

/-- The entries of a table whose keys are all texts; an empty plain scalar is an empty
table. -/
def asEntries? (anchored : List (Nat × Document)) (d : Document) :
    Option (List (String × Document)) :=
  match d.resolve anchored with
  | table entries => entries.mapM fun (key, value) => (key.asText? anchored).map (·, value)
  | plain "" _ => some []
  | _ => none

/-- The entries of a table of texts. -/
def asTexts? (anchored : List (Nat × Document)) (d : Document) :
    Option (List (String × String)) := do
  (← d.asEntries? anchored).mapM fun (key, value) => (value.asText? anchored).map (key, ·)

/-- The values of the fields of a record, in the order of `fields`. Other entries do
not count, but no field may be given twice. -/
def asRecord? (rule : RecordLists) (anchored : List (Nat × Document))
    (fields : List String) (d : Document) : Option (List (Option Document)) :=
  match d.resolve anchored, rule with
  | list _, .refused => none
  | list items, .exact =>
    if items.length ≤ fields.length then
      some ((fields.zipIdx).map fun (_, i) => items[i]?)
    else none
  | list items, .loose => some ((fields.zipIdx).map fun (_, i) => items[i]?)
  | d, _ => do
    let entries ← d.asEntries? anchored
    fields.mapM fun field =>
      match entries.filter (·.1 = field) with
      | [] => some none
      | [(_, value)] => some (some value)
      | _ => none

end Document

end UrlRouting
