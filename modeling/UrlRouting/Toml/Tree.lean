import UrlRouting.Document.Basic

/-!
# Tables as they are being written

A table may be opened by a header, by the keys of a header below it, or by a dotted
key. Which of these it was tells what may be added to it later. Values are closed.
-/

namespace UrlRouting.Toml

/-- How a table came to be. -/
inductive Origin where
  /-- By a header of its own. -/
  | header
  /-- By the header of a table inside it. -/
  | path
  /-- By a dotted key. -/
  | dotted
deriving DecidableEq, Repr

inductive Node where
  | value (d : Document)
  | table (origin : Origin) (entries : List (String × Node))
  /-- The tables of a list of tables, the last one first. -/
  | tables (items : List (List (String × Node)))

abbrev Entries := List (String × Node)

mutual

def Node.document : Node → Document
  | .value d => d
  | .table _ entries => .table (documentsOf entries)
  | .tables items => .list (tablesOf items)

/-- The entries of a table as documents. -/
def documentsOf : Entries → List (Document × Document)
  | [] => []
  | (key, node) :: rest => (.text key, node.document) :: documentsOf rest

/-- The tables of a list as documents, put in order. -/
def tablesOf : List Entries → List Document
  | [] => []
  | entries :: earlier => tablesOf earlier ++ [.table (documentsOf entries)]

end

/-- Puts a node under a key, over the one that is there. -/
def put (key : String) (node : Node) : Entries → Entries
  | [] => [(key, node)]
  | entry :: rest => if entry.1 = key then (key, node) :: rest else entry :: put key node rest

/-- Changes the table at the end of a path; the tables on the way are opened if they
are missing. Dotted keys do not reach into a table that has a header. -/
def descend (dotted : Bool) (change : Origin → Entries → Option Entries)
    (origin : Origin) :
    List String → Entries → Option Entries
  | [], entries => change origin entries
  | key :: rest, entries =>
    match entries.lookup key with
    | none => do
      let origin := if dotted then Origin.dotted else .path
      return put key (.table origin (← descend dotted change origin rest [])) entries
    | some (.table origin inner) =>
      if dotted && origin = .header then none
      else do return put key (.table origin (← descend dotted change origin rest inner)) entries
    | some (.tables (last :: earlier)) => do
      return put key (.tables ((← descend dotted change .header rest last) :: earlier)) entries
    | some _ => none

/-- Writes a value under a key of at least one part. -/
def setValue (key : List String) (d : Document) (origin : Origin) (entries : Entries) :
    Option Entries :=
  match key.getLast? with
  | none => none
  | some last =>
    let path := key.dropLast
    descend true (fun origin entries =>
      if (origin = .dotted) == path.isEmpty then none
      else if (entries.lookup last).isSome then none
      else some (put last (.value d) entries)) origin path entries

/-- Opens the table of a header. -/
def openTable (key : List String) (entries : Entries) : Option Entries :=
  match key.getLast? with
  | none => none
  | some last =>
    descend false (fun _ entries =>
      match entries.lookup last with
      | none => some (put last (.table .header []) entries)
      | some (.table .path inner) => some (put last (.table .header inner) entries)
      | some _ => none) .header key.dropLast entries

/-- Opens one more table of a list of tables. -/
def openListed (key : List String) (entries : Entries) : Option Entries :=
  match key.getLast? with
  | none => none
  | some last =>
    descend false (fun _ entries =>
      match entries.lookup last with
      | none => some (put last (.tables [[]]) entries)
      | some (.tables items) => some (put last (.tables ([] :: items)) entries)
      | some _ => none) .header key.dropLast entries

end UrlRouting.Toml
