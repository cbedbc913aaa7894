import UrlRouting.Pattern.Text
import UrlRouting.Proofs.Regex.Positions

/-!
# The built-in match types

Six match types stand in every new table. Each has a set of characters that its
values are made of; a value is never empty. One of them is lazy: of the values that
it could take it prefers the shortest.
-/

namespace UrlRouting

inductive ValueKind where
  | digits
  | alphanumerics
  | hexDigits
  | shortest
  | longest
  | component
deriving DecidableEq, Repr

namespace ValueKind

/-- The name under which a block asks for the kind. -/
def name : ValueKind → String
  | digits => "i"
  | alphanumerics => "a"
  | hexDigits => "h"
  | shortest => "*"
  | longest => "**"
  | component => ""

/-- The regular expression of the kind. -/
def fragment : ValueKind → String
  | digits => "[0-9]+"
  | alphanumerics => "[0-9A-Za-z]+"
  | hexDigits => "[0-9A-Fa-f]+"
  | shortest => ".+?"
  | longest => ".+"
  | component => "[^/\\.]+"

/-- The characters that values of the kind are made of. -/
def admits : ValueKind → Char → Bool
  | digits, c => '0' ≤ c && c ≤ '9'
  | alphanumerics, c => ('0' ≤ c && c ≤ '9') || ('A' ≤ c && c ≤ 'Z') || ('a' ≤ c && c ≤ 'z')
  | hexDigits, c => ('0' ≤ c && c ≤ '9') || ('A' ≤ c && c ≤ 'F') || ('a' ≤ c && c ≤ 'f')
  | shortest, c => c ≠ '\n'
  | longest, c => c ≠ '\n'
  | component, c => c ≠ '/' && c ≠ '.'

def isLazy : ValueKind → Bool
  | shortest => true
  | _ => false

/-- The kind that a block asks for; a name that is not built in is read as the last. -/
def ofName : String → ValueKind
  | "i" => digits
  | "a" => alphanumerics
  | "h" => hexDigits
  | "*" => shortest
  | "**" => longest
  | _ => component

theorem ofName_name (k : ValueKind) : ofName k.name = k := by
  cases k <;> rfl

theorem get?_builtIn (k : ValueKind) :
    MatchTypes.builtIn.get? k.name = some k.fragment := by
  cases k <;> decide

/-- The names that a new table has are those of the six kinds. -/
theorem exists_of_mem_builtInTypes {typeName : String}
    (h : typeName ∈ builtInTypes.map (·.1)) : ∃ k : ValueKind, typeName = k.name := by
  simp only [builtInTypes, List.map_cons, List.map_nil, List.mem_cons, List.not_mem_nil,
    or_false] at h
  rcases h with rfl | rfl | rfl | rfl | rfl | rfl
  · exact ⟨digits, rfl⟩
  · exact ⟨alphanumerics, rfl⟩
  · exact ⟨hexDigits, rfl⟩
  · exact ⟨shortest, rfl⟩
  · exact ⟨longest, rfl⟩
  · exact ⟨component, rfl⟩

open Regex in
/-- The class of the characters of a kind. -/
def cls : ValueKind → CharClass
  | digits => .range '0' '9'
  | alphanumerics => .ofList [.range '0' '9', .range 'A' 'Z', .range 'a' 'z']
  | hexDigits => .ofList [.range '0' '9', .range 'A' 'F', .range 'a' 'f']
  | shortest => .complement (.single '\n')
  | longest => .complement (.single '\n')
  | component => .complement (.ofList [.single '/', .single '.'])

open Regex in
/-- The expression of a kind. -/
def expr (k : ValueKind) : Pattern :=
  .loop 1 none (!k.isLazy) (.take k.cls)

theorem contains_cls (k : ValueKind) (c : Char) : k.cls.contains c = k.admits c := by
  cases k with
  | digits => rfl
  | alphanumerics =>
    simp [cls, admits, Regex.CharClass.ofList, Regex.CharClass.contains, Bool.or_assoc]
  | hexDigits => simp [cls, admits, Regex.CharClass.ofList, Regex.CharClass.contains, Bool.or_assoc]
  | shortest => simp [cls, admits, Regex.CharClass.contains, Regex.CharClass.contains_single]
  | longest => simp [cls, admits, Regex.CharClass.contains, Regex.CharClass.contains_single]
  | component =>
    simp [cls, admits, Regex.CharClass.ofList, Regex.CharClass.contains,
      Regex.CharClass.contains_single]

end ValueKind

end UrlRouting
