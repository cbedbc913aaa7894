/-!
# Writing JSON

Values are written over several lines, two blanks deeper for every level. Only quotes,
backslashes and control characters are escaped in strings.
-/

namespace UrlRouting.Json

inductive Value where
  | null
  | text (s : String)
  | object (entries : List (String × Value))
deriving Repr

/-- A digit of a hexadecimal number, in small letters. -/
def hexDigit (n : Nat) : Char :=
  if n < 10 then Char.ofNat ('0'.toNat + n) else Char.ofNat ('a'.toNat + (n - 10))

/-- A character as it stands in a string. -/
def escapeChar (c : Char) : List Char :=
  match c with
  | '"' => ['\\', '"']
  | '\\' => ['\\', '\\']
  | '\x08' => ['\\', 'b']
  | '\x0c' => ['\\', 'f']
  | '\n' => ['\\', 'n']
  | '\r' => ['\\', 'r']
  | '\t' => ['\\', 't']
  | c =>
    if c.toNat < 0x20 then ['\\', 'u', '0', '0', hexDigit (c.toNat / 16), hexDigit (c.toNat % 16)]
    else [c]

def quote (s : String) : List Char :=
  '"' :: s.toList.flatMap escapeChar ++ ['"']

/-- The start of a line at a depth. -/
def newline (depth : Nat) : List Char :=
  '\n' :: List.replicate (2 * depth) ' '

mutual

/-- The text of a value at a depth. -/
def Value.write (depth : Nat) : Value → List Char
  | .null => ['n', 'u', 'l', 'l']
  | .text s => quote s
  | .object [] => ['\x7b', '\x7d']
  | .object (entry :: rest) =>
    '\x7b' :: writeEntries depth (entry :: rest) ++ newline depth ++ ['\x7d']

/-- Entries with commas between them, each on a line of its own. -/
def writeEntries (depth : Nat) : List (String × Value) → List Char
  | [] => []
  | (key, value) :: rest =>
    newline (depth + 1) ++ quote key ++ [':', ' '] ++ value.write (depth + 1) ++
      (if rest = [] then [] else [',']) ++ writeEntries depth rest

end

/-- The text of a value. -/
def Value.pretty (v : Value) : String :=
  String.ofList (v.write 0)

end UrlRouting.Json
