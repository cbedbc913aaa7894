/-!
# White space

A character is blank when it has the Unicode property White_Space. `trim` drops
blank characters from both ends of a text and keeps those inside it.
-/

namespace UrlRouting

/-- The property White_Space. -/
def isBlank (c : Char) : Bool :=
  let n := c.toNat
  (9 ≤ n && n ≤ 13) || n == 32 || n == 0x85 || n == 0xA0 || n == 0x1680 ||
  (0x2000 ≤ n && n ≤ 0x200A) || n == 0x2028 || n == 0x2029 || n == 0x202F ||
  n == 0x205F || n == 0x3000

/-- Drops blank characters from the end. -/
def trimRight : List Char → List Char
  | [] => []
  | c :: rest =>
    match trimRight rest with
    | [] => if isBlank c then [] else [c]
    | d :: tail => c :: d :: tail

/-- Drops blank characters from both ends. -/
def trim (cs : List Char) : List Char :=
  trimRight (cs.dropWhile isBlank)

theorem trimRight_append_not_blank {c : Char} (hc : isBlank c = false) (cs : List Char) :
    trimRight (cs ++ [c]) = cs ++ [c] := by
  induction cs with
  | nil => simp [trimRight, hc]
  | cons d rest ih =>
    cases rest with
    | nil => simp [trimRight, hc]
    | cons e tail => simp_all [trimRight]

theorem trimRight_append_blank {c : Char} (hc : isBlank c = true) (cs : List Char) :
    trimRight (cs ++ [c]) = trimRight cs := by
  induction cs with
  | nil => simp [trimRight, hc]
  | cons d rest ih => simp [trimRight, ih]

example : trim [' ', 'G', ' ', 'T', '\n', '\u3000'] = ['G', ' ', 'T'] := by decide
example : trim ['\u200b', 'G'] = ['\u200b', 'G'] := by decide

end UrlRouting
