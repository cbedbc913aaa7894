import UrlRouting.Text.Blank

/-!
# Flags

Flags change how the rest of a group is read. Some change what a leaf means,
`verbose` changes which characters are read at all: blanks and comments are then
passed over.
-/

namespace UrlRouting.Regex

structure Flags where
  ignoreCase : Bool := false
  multiLine : Bool := false
  dotNewline : Bool := false
  swapGreed : Bool := false
  crlf : Bool := false
  verbose : Bool := false
  unicode : Bool := true
deriving DecidableEq, Repr

/-- Sets the flag of a letter. -/
def Flags.assign? (f : Flags) (letter : Char) (value : Bool) : Option Flags :=
  match letter with
  | 'i' => some { f with ignoreCase := value }
  | 'm' => some { f with multiLine := value }
  | 's' => some { f with dotNewline := value }
  | 'U' => some { f with swapGreed := value }
  | 'R' => some { f with crlf := value }
  | 'x' => some { f with verbose := value }
  | 'u' => some { f with unicode := value }
  | _ => none

/-- Passes over blanks and comments, which go from a number sign to the end of
the line. -/
def skipVerbose (inComment : Bool) : List Char → List Char
  | [] => []
  | c :: rest =>
    if inComment then skipVerbose (c ≠ '\n') rest
    else if isBlank c then skipVerbose false rest
    else if c = '#' then skipVerbose true rest
    else c :: rest

/-- What is left to read, under the flags. -/
def Flags.skip (f : Flags) (cs : List Char) : List Char :=
  if f.verbose then skipVerbose false cs else cs

theorem Flags.skip_nil (f : Flags) : f.skip [] = [] := by
  unfold Flags.skip
  split <;> rfl

/-- The next character that counts behind the current one. A comment is entered
here but not left. -/
def Flags.peek (f : Flags) (cs : List Char) : Option Char :=
  if f.verbose then
    match cs.dropWhile isBlank with
    | '#' :: rest => (rest.dropWhile isBlank).head?
    | rest => rest.head?
  else cs.head?

theorem length_skipVerbose_le (inComment : Bool) (cs : List Char) :
    (skipVerbose inComment cs).length ≤ cs.length := by
  induction cs generalizing inComment with
  | nil => simp [skipVerbose]
  | cons c rest ih =>
    simp only [skipVerbose]
    split
    · exact Nat.le_succ_of_le (ih _)
    · split
      · exact Nat.le_succ_of_le (ih _)
      · split
        · exact Nat.le_succ_of_le (ih _)
        · exact Nat.le_refl _

theorem Flags.length_skip_le (f : Flags) (cs : List Char) :
    (f.skip cs).length ≤ cs.length := by
  unfold Flags.skip
  split
  · exact length_skipVerbose_le false cs
  · exact Nat.le_refl _

/-- Reading a character behind skipped ones leaves less to read. -/
theorem Flags.length_lt_of_skip {f : Flags} {cs rest : List Char} {c : Char}
    (h : f.skip cs = c :: rest) : rest.length < cs.length := by
  have hle := f.length_skip_le cs
  rw [h] at hle
  exact hle

end UrlRouting.Regex
