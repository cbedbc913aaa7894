import Std.Data.HashMap
import Std.Data.TreeMap
import UrlRouting.Dictionary

/-!
# Parameters

A match yields a list of named values in the order of their blocks; a generated
URL takes its values from anything that can be asked for a name. Whatever holds
the parameters, the last value given to a name is the one that counts.
-/

namespace UrlRouting

/-- The named values of a match, in order. -/
structure Params where
  entries : List (String × String)
deriving DecidableEq, Repr

namespace Params

def empty : Params := ⟨[]⟩

/-- The number of entries up to which the list is meant to stay small. -/
def usualSize : Nat := 8

def push (p : Params) (name value : String) : Params :=
  ⟨p.entries ++ [(name, value)]⟩

def ofList (pairs : List (String × String)) : Params :=
  pairs.foldl (fun p (name, value) => p.push name value) empty

def size (p : Params) : Nat :=
  p.entries.length

/-- The value pushed last under a name. -/
def get? (p : Params) (name : String) : Option String :=
  p.entries.reverse.lookup name

/-- One entry per name, the last one, in name order. -/
def toDictionary (p : Params) : Dictionary :=
  Dictionary.ofList p.entries

end Params

/-- A value that has a text to put into a URL. -/
class ParamText (ν : Type) where
  text : ν → String

instance : ParamText String := ⟨id⟩

instance : ParamText Int := ⟨fun n => toString n⟩

/-- Something that can be asked for the value of a name. -/
class ParamSource (σ : Type) where
  lookup : σ → String → Option String

/-- The last pair with the name, searched for from the end. -/
def lookupLast {ν : Type} (pairs : List (String × ν)) (name : String) : Option ν :=
  (pairs.reverse.find? (·.1 == name)).map (·.2)

instance {ν : Type} [ParamText ν] : ParamSource (List (String × ν)) :=
  ⟨fun pairs name => (lookupLast pairs name).map ParamText.text⟩

instance {ν : Type} [ParamText ν] : ParamSource (Array (String × ν)) :=
  ⟨fun pairs name => (lookupLast pairs.toList name).map ParamText.text⟩

instance {ν : Type} [ParamText ν] : ParamSource (Std.HashMap String ν) :=
  ⟨fun pairs name => (pairs[name]?).map ParamText.text⟩

instance {ν : Type} [ParamText ν] : ParamSource (Std.TreeMap String ν) :=
  ⟨fun pairs name => (pairs[name]?).map ParamText.text⟩

instance : ParamSource Dictionary :=
  ⟨Dictionary.get?⟩

instance : ParamSource Params :=
  ⟨Params.get?⟩

/-- A hash table filled by inserting the pairs in order. -/
def hashOfList {ν : Type} (pairs : List (String × ν)) : Std.HashMap String ν :=
  pairs.foldl (fun table (name, value) => table.insert name value) {}

/-- An ordered tree filled by inserting the pairs in order. -/
def treeOfList {ν : Type} (pairs : List (String × ν)) : Std.TreeMap String ν :=
  pairs.foldl (fun tree (name, value) => tree.insert name value) {}

end UrlRouting
