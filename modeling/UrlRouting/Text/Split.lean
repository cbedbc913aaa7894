/-!
# Cutting a text at a separator

`cutAt` cuts at the first separator, `splitOn` at every one. `splitOn` undoes
joining: pieces without the separator come back as they were.
-/

namespace UrlRouting

/-- The text before and after the first `sep`, if there is one. -/
def cutAt (sep : Char) : List Char → Option (List Char × List Char)
  | [] => none
  | c :: rest =>
    if c = sep then some ([], rest)
    else (cutAt sep rest).map fun (before, after) => (c :: before, after)

/-- The pieces between the separators; one more than there are separators. -/
def splitOn (sep : Char) : List Char → List (List Char)
  | [] => [[]]
  | c :: rest =>
    if c = sep then [] :: splitOn sep rest
    else
      match splitOn sep rest with
      | [] => [[c]]
      | piece :: pieces => (c :: piece) :: pieces

/-- What is left of a text after a given beginning. -/
def dropStart : List Char → List Char → Option (List Char)
  | [], cs => some cs
  | _ :: _, [] => none
  | b :: start, c :: cs => if b = c then dropStart start cs else none

/-- Cutting leaves less than there was. -/
theorem length_lt_of_cutAt {sep : Char} {cs before after : List Char}
    (h : cutAt sep cs = some (before, after)) : after.length < cs.length := by
  fun_induction cutAt sep cs generalizing before <;> grind [Option.map_eq_some_iff]

theorem splitOn_ne_nil (sep : Char) (cs : List Char) : splitOn sep cs ≠ [] := by
  cases cs with
  | nil => simp [splitOn]
  | cons c rest =>
    unfold splitOn
    split
    · simp
    · cases splitOn sep rest <;> simp

theorem splitOn_append_sep (sep : Char) (xs ys : List Char) :
    splitOn sep (xs ++ sep :: ys) = splitOn sep xs ++ splitOn sep ys := by
  induction xs with
  | nil => simp [splitOn]
  | cons c rest ih =>
    by_cases h : c = sep
    · simp [splitOn, h, ih]
    · have hne := splitOn_ne_nil sep rest
      cases hrest : splitOn sep rest with
      | nil => exact absurd hrest hne
      | cons piece pieces => simp [splitOn, h, ih, hrest]

theorem dropStart_eq_some_iff {start cs rest : List Char} :
    dropStart start cs = some rest ↔ cs = start ++ rest := by
  induction start generalizing cs with
  | nil => simp [dropStart]
  | cons b start ih =>
    cases cs with
    | nil => simp [dropStart]
    | cons c cs =>
      by_cases h : b = c
      · simp [dropStart, h, ih]
      · simp [dropStart, h, Ne.symm h]

example : splitOn '|' ['a', '|', '|', 'b'] = [['a'], [], ['b']] := by decide

end UrlRouting
