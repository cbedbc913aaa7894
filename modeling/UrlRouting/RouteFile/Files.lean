import UrlRouting.RouteFile.Format

/-!
# Files by path

A route file is read from one directory, in which there are files of text or other
bytes and empty directories. Nothing outside it is found.
-/

namespace UrlRouting

/-- Why a file could not be read. -/
inductive ReadFailure where
  | notFound
  | notDirectory
  | isDirectory
  | notText
  | other (reason : String)
deriving DecidableEq, Repr

/-- The sentence of the system for a failure. -/
def ReadFailure.reason : ReadFailure → String
  | notFound => "No such file or directory (os error 2)"
  | notDirectory => "Not a directory (os error 20)"
  | isDirectory => "Is a directory (os error 21)"
  | notText => "stream did not contain valid UTF-8"
  | other reason => reason

inductive FileNode where
  | text (content : String)
  | bytes (content : ByteArray)
  | directory

/-- The text of a file, by its path. -/
abbrev Files := String → Except ReadFailure String

/-- What is found at a name of the directory. -/
def FileNode.read : FileNode → Except ReadFailure String
  | text content => .ok content
  | bytes content =>
    match String.fromUTF8? content with
    | some content => .ok content
    | none => .error .notText
  | directory => .error .isDirectory

/-- Follows the parts of a path, from the directory or from one in it. -/
def findNode (nodes : List (String × FileNode)) : Option FileNode → List (List Char) →
    Except ReadFailure FileNode
  | none, [] => .ok .directory
  | some node, [] => .ok node
  | here, ['.'] :: rest =>
    match here with
    | none => findNode nodes none rest
    | some .directory => findNode nodes here rest
    | some _ => .error .notDirectory
  | none, part :: rest =>
    match nodes.lookup (String.ofList part) with
    | some node => findNode nodes (some node) rest
    | none => .error .notFound
  | some .directory, part :: rest =>
    if part = ['.', '.'] then findNode nodes none rest else .error .notFound
  | some _, _ :: _ => .error .notDirectory

/-- The files of a directory with these names. A path that ends in a slash has to be
that of a directory. -/
def Files.ofList (nodes : List (String × FileNode)) : Files := fun path =>
  match path.toList with
  | [] => .error .notFound
  | '/' :: _ => .error .notFound
  | cs => do
    let parts := (splitOn '/' cs).map fun part => if part = [] then ['.'] else part
    FileNode.read (← findNode nodes none parts)

end UrlRouting
