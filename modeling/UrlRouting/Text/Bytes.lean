/-!
# Byte offsets

Positions in a template are counted in bytes of its UTF-8 form, while the text
itself is handled as a list of characters. `byteCount` links the two: it is
additive, so the offset of a character is the byte count of the text before it.
-/

namespace UrlRouting

/-- Bytes that a text takes in UTF-8. -/
def byteCount : List Char → Nat
  | [] => 0
  | c :: rest => c.utf8Size + byteCount rest

@[simp] theorem byteCount_nil : byteCount [] = 0 := rfl

@[simp] theorem byteCount_cons (c : Char) (cs : List Char) :
    byteCount (c :: cs) = c.utf8Size + byteCount cs := rfl

@[simp] theorem byteCount_append (xs ys : List Char) :
    byteCount (xs ++ ys) = byteCount xs + byteCount ys := by
  induction xs with
  | nil => simp
  | cons c rest ih => simp [ih, Nat.add_assoc]

@[simp] theorem byteCount_reverse (cs : List Char) : byteCount cs.reverse = byteCount cs := by
  induction cs with
  | nil => rfl
  | cons c rest ih => simp [ih, Nat.add_comm]

example : byteCount ['/', 'é', '日'] = 6 := by decide

end UrlRouting
