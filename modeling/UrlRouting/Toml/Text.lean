import UrlRouting.Text.Letters
import UrlRouting.Text.Split

/-!
# Quoted texts, keys and blanks

Texts in single or double quotes, on one line or on several. In double quotes a
backslash escapes, in single quotes every character stands for itself.
-/

namespace UrlRouting.Toml

def isBlank (c : Char) : Bool :=
  c = ' ' || c = '\t'

def skipBlanks (cs : List Char) : List Char :=
  cs.dropWhile isBlank

/-- A character that may stand in a text or a comment; line ends are apart. -/
def isPrintable (c : Char) : Bool :=
  c = '\t' || (0x20 ≤ c.toNat && c ≠ '\x7f')

/-- What follows a line end. -/
def lineEnd? : List Char → Option (List Char)
  | '\n' :: rest => some rest
  | '\r' :: '\n' :: rest => some rest
  | _ => none

/-- Reads the number of a character in `count` hexadecimal digits. -/
def readCode? (count : Nat) (cs : List Char) : Option (Char × List Char) := do
  let digits := cs.take count
  if digits.length < count then none
  else
    let n ← numberValue 16 digits
    if n.isValidChar then return (Char.ofNat n, cs.drop count) else none

/-- Reads an escape behind its backslash. -/
def readEscape? : List Char → Option (Char × List Char)
  | 'b' :: rest => some ('\x08', rest)
  | 't' :: rest => some ('\t', rest)
  | 'n' :: rest => some ('\n', rest)
  | 'f' :: rest => some ('\x0c', rest)
  | 'r' :: rest => some ('\r', rest)
  | 'e' :: rest => some ('\x1b', rest)
  | '"' :: rest => some ('"', rest)
  | '\\' :: rest => some ('\\', rest)
  | 'x' :: rest => readCode? 2 rest
  | 'u' :: rest => readCode? 4 rest
  | 'U' :: rest => readCode? 8 rest
  | _ => none

/-- Passes over blanks and line ends. -/
def skipSpace : List Char → List Char
  | '\r' :: '\n' :: rest => skipSpace rest
  | '\n' :: rest => skipSpace rest
  | c :: rest => if isBlank c then skipSpace rest else c :: rest
  | [] => []

/-- What follows a backslash at the end of a line, with the blanks and line ends
behind it. -/
def joinedLine? (cs : List Char) : Option (List Char) :=
  (lineEnd? (skipBlanks cs)).map skipSpace

/-- Reads a text in double quotes behind the opening ones. -/
def readDouble (manyLines : Bool) :
    Nat → List Char → List Char → Option (String × List Char)
  | 0, _, _ => none
  | fuel + 1, held, cs =>
    match cs with
    | [] => none
    | '\\' :: rest =>
      match if manyLines then joinedLine? rest else none with
      | some rest => readDouble manyLines fuel held rest
      | none => do
        let (c, rest) ← readEscape? rest
        readDouble manyLines fuel (c :: held) rest
    | '"' :: rest =>
      if !manyLines then some (String.ofList held.reverse, rest)
      else
        match rest with
        | '"' :: '"' :: '"' :: '"' :: rest =>
          some (String.ofList ('"' :: '"' :: held).reverse, rest)
        | '"' :: '"' :: '"' :: rest => some (String.ofList ('"' :: held).reverse, rest)
        | '"' :: '"' :: rest => some (String.ofList held.reverse, rest)
        | rest => readDouble manyLines fuel ('"' :: held) rest
    | '\r' :: '\n' :: rest =>
      if manyLines then readDouble manyLines fuel ('\n' :: '\r' :: held) rest else none
    | '\n' :: rest => if manyLines then readDouble manyLines fuel ('\n' :: held) rest else none
    | c :: rest => if isPrintable c then readDouble manyLines fuel (c :: held) rest else none

/-- Reads a text in single quotes behind the opening ones. -/
def readSingle (manyLines : Bool) (held : List Char) :
    List Char → Option (String × List Char)
  | [] => none
  | '\'' :: rest =>
    if !manyLines then some (String.ofList held.reverse, rest)
    else
      match rest with
      | '\'' :: '\'' :: '\'' :: '\'' :: rest =>
        some (String.ofList ('\'' :: '\'' :: held).reverse, rest)
      | '\'' :: '\'' :: '\'' :: rest => some (String.ofList ('\'' :: held).reverse, rest)
      | '\'' :: '\'' :: rest => some (String.ofList held.reverse, rest)
      | rest => readSingle manyLines ('\'' :: held) rest
  | '\r' :: '\n' :: rest =>
    if manyLines then readSingle manyLines ('\n' :: '\r' :: held) rest else none
  | '\n' :: rest => if manyLines then readSingle manyLines ('\n' :: held) rest else none
  | c :: rest => if isPrintable c then readSingle manyLines (c :: held) rest else none

/-- Drops a line end at the start of a text on several lines. -/
def dropLineEnd (cs : List Char) : List Char :=
  (lineEnd? cs).getD cs

/-- Reads a text that begins with a quote; `none` inside if it begins with none. -/
def readQuoted (allowMany : Bool) : List Char → Option (Option (String × List Char))
  | '"' :: '"' :: '"' :: rest =>
    if allowMany then
      let rest := dropLineEnd rest
      some <$> readDouble true (rest.length + 1) [] rest
    else none
  | '\'' :: '\'' :: '\'' :: rest =>
    if allowMany then some <$> readSingle true [] (dropLineEnd rest) else none
  | '"' :: rest => some <$> readDouble false (rest.length + 1) [] rest
  | '\'' :: rest => some <$> readSingle false [] rest
  | _ => some none

def isBareKeyChar (c : Char) : Bool :=
  c.isAlphanum || c = '_' || c = '-'

/-- Reads one part of a key. -/
def readKeyPart (cs : List Char) : Option (String × List Char) := do
  match ← readQuoted false cs with
  | some answer => return answer
  | none =>
    let name := cs.takeWhile isBareKeyChar
    if name = [] then none else return (String.ofList name, cs.drop name.length)

/-- Reads a key of parts with dots between them, and the blanks around it. -/
def readKey : Nat → List Char → Option (List String × List Char)
  | 0, _ => none
  | fuel + 1, cs => do
    let (part, rest) ← readKeyPart (skipBlanks cs)
    match skipBlanks rest with
    | '.' :: rest =>
      let (parts, rest) ← readKey fuel rest
      return (part :: parts, rest)
    | rest => return ([part], rest)

/-- Passes over a comment, up to the line end. -/
def skipComment? : List Char → Option (List Char)
  | '#' :: rest =>
    let comment := rest.takeWhile fun c => c ≠ '\n' && c ≠ '\r'
    if comment.all isPrintable then some (rest.drop comment.length) else none
  | cs => some cs

/-- Passes over blanks, comments and line ends inside a value. -/
def skipLines : Nat → List Char → Option (List Char)
  | 0, _ => none
  | fuel + 1, cs => do
    let rest ← skipComment? (skipBlanks cs)
    match lineEnd? rest with
    | some rest => skipLines fuel rest
    | none => return rest

end UrlRouting.Toml
