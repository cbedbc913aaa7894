import UrlRouting.Text.Letters
import UrlRouting.Unicode.AgeData
import UrlRouting.Unicode.BoundaryData
import UrlRouting.Unicode.Letter
import UrlRouting.Unicode.ScriptData

/-!
# Properties by name

A property is asked for by a name, such as `Greek` or `Lu`, or by a name and a
value, such as `script=Greek`. Case, blanks, low lines, hyphens and a leading
`is` of a name do not count.
-/

namespace UrlRouting.Unicode

inductive Property where
  | any
  | ascii
  | assigned
  | categories (wanted : List Category)
  | script (number : Nat)
  /-- The characters that a script uses, those of other scripts among them. -/
  | scriptExtensions (number : Nat)
  | alphabetic
  | lowercase
  | uppercase
  | cased
  | whiteSpace
  /-- A property by its position among the further ones. -/
  | further (number : Nat)
  /-- The characters that a version has, given by its position. -/
  | age (version : Nat)
  /-- The characters with a value for a kind of boundary, both given by their
  positions. -/
  | boundary (kind value : Nat)
deriving DecidableEq, Repr

def scriptTable : Runs Nat :=
  Runs.ofLengths ((pieces scriptRuns).map fun piece =>
    (number36 (piece.take 2), number36 (piece.drop 2)))

def extensionTables : List (Nat × Runs Bool) :=
  extensionChanges.map fun (number, changes) => (number, setOfGaps changes)

/-- A set of characters: some categories, but for the changes. -/
structure CharSet where
  categories : List Category
  changes : Runs Bool

def CharSet.holds (set : CharSet) (c : Char) : Bool :=
  set.categories.contains (categoryOf c) != set.changes.holds c

def furtherTables : Array CharSet :=
  (furtherProperties.map fun (_, categories, changes) =>
    CharSet.mk categories (setOfGaps changes)).toArray

def boundaryTables : Array (Array CharSet) :=
  (boundaryValues.map fun (_, values) =>
    (values.map fun (_, categories, changes) =>
      CharSet.mk categories (setOfGaps changes)).toArray).toArray

def ageTable : Runs Nat :=
  Runs.ofLengths ((pieces ageRuns).map fun piece =>
    (number36 (piece.take 1), number36 (piece.drop 1)))

/-- Whether a character was assigned in the version at a position or before it. -/
def isOfAge (version : Nat) (c : Char) : Bool :=
  (ageTable.get? c.toNat).any fun age => 0 < age && age ≤ version + 1

/-- Whether a character belongs to a script. -/
def isOfScript (number : Nat) (c : Char) : Bool :=
  scriptTable.get? c.toNat = some number

/-- Whether a character has a property. -/
def Property.holds : Property → Char → Bool
  | any, _ => true
  | ascii, c => isAscii c
  | assigned, c => categoryOf c ≠ .cn
  | categories wanted, c => wanted.contains (categoryOf c)
  | script number, c => isOfScript number c
  | scriptExtensions number, c =>
    isOfScript number c != (extensionTables.lookup number).any (·.holds c)
  | alphabetic, c => isAlphabetic c
  | lowercase, c => isLowercase c
  | uppercase, c => isUppercase c
  | cased, c => isLowercase c || isUppercase c || categoryOf c = .lt
  | whiteSpace, c => isBlank c
  | further number, c => furtherTables[number]?.any (·.holds c)
  | age version, c => isOfAge version c
  | boundary kind value, c => (boundaryTables[kind]?.bind (·[value]?)).any (·.holds c)

/-- The part of a name that counts. -/
def looseName (name : List Char) : String :=
  let startsWithIs := lowerAscii (name.take 2) = ['i', 's']
  let rest := if startsWithIs then name.drop 2 else name
  let kept := rest.filter fun c => isAscii c && c ≠ ' ' && c ≠ '_' && c ≠ '-'
  let loose := String.ofList (lowerAscii kept)
  if startsWithIs && loose = "c" then "isc" else loose

/-- The properties that hold or do not, each with its names. -/
def yesNoNames : List (List String × Property) := [
  (["alphabetic", "alpha"], .alphabetic),
  (["lowercase", "lower"], .lowercase),
  (["uppercase", "upper"], .uppercase),
  (["cased"], .cased),
  (["whitespace", "wspace", "space"], .whiteSpace)]

def yesNoOf? (loose : String) : Option Property :=
  match yesNoNames.find? (·.1.contains loose) with
  | some (_, property) => some property
  | none => (furtherProperties.findIdx? (·.1.contains loose)).map .further

/-- The general category, or group of them, of a loose name. Surrogates are no
characters, so there is nothing to ask for. -/
def categoryOf? (loose : String) : Option Property :=
  if loose = "any" then some .any
  else if loose = "ascii" then some .ascii
  else if loose = "assigned" then some .assigned
  else
    match Category.groups.find? (·.1.contains loose) with
    | some (_, wanted) => some (.categories wanted)
    | none =>
      match Category.names.find? fun (_, short, long) => short = loose || long.contains loose with
      | some (.cs, _, _) => none
      | some (category, _, _) => some (.categories [category])
      | none => none

/-- The position of the script with a loose name. -/
def scriptOf? (loose : String) : Option Nat :=
  scriptNames.findIdx? (·.contains loose)

/-- The property with a name: one that holds or does not, else a general
category, else a script. Three short names are always categories. -/
def Property.ofName? (name : List Char) : Option Property :=
  let loose := looseName name
  let yesNo := if loose ∈ ["cf", "sc", "lc"] then none else yesNoOf? loose
  yesNo <|> categoryOf? loose <|> (scriptOf? loose).map .script

/-- The boundary value with a loose name, for a kind of boundary with a loose name. -/
def boundaryOf? (kind value : String) : Option Property := do
  let number ← boundaryValues.findIdx? (·.1.contains kind)
  let (_, values) ← boundaryValues[number]?
  let position ← values.findIdx? (·.1.contains value)
  return .boundary number position

/-- The property with a name and a value. -/
def Property.ofValue? (name value : List Char) : Option Property :=
  let kind := looseName name
  if kind ∈ ["gc", "generalcategory"] then categoryOf? (looseName value)
  else if kind ∈ ["sc", "script"] then (scriptOf? (looseName value)).map .script
  else if kind ∈ ["scx", "scriptextensions"] then
    (scriptOf? (looseName value)).map .scriptExtensions
  else if kind = "age" then (ageNames.findIdx? (·.contains (looseName value))).map .age
  else boundaryOf? kind (looseName value)

end UrlRouting.Unicode
