import UrlRouting.Regex.Token
import UrlRouting.Regex.SizeLimit

/-!
# Reading a regular expression

The reader goes through a text token by token. It keeps, for every open group and
for the whole, the alternatives finished so far and the pieces of the one that is
growing. Each token does one thing to the innermost group, so that what a text
does is what its first part does and then what the rest does.

Which texts are accepted is taken over from the engine: its tokens, that no two groups
have one name, how deeply parts may be nested, and the limit on the size.
-/

namespace UrlRouting.Regex

/-- A finished part of an expression: its nesting, and whether it may be
repeated. -/
structure Piece where
  expr : Pattern
  depth : Nat
  repeatable : Bool
deriving DecidableEq, Repr

/-- An open group: the number and name of its capture, the flags that hold again
behind it, its finished alternatives and the pieces of the current one, both with
the last one first. -/
structure Level where
  capture : Option (Nat × Option String)
  outerFlags : Flags
  branches : List Piece
  pieces : List Piece
deriving DecidableEq, Repr

/-- The state of the reader: the flags in force, how many captures began, the names
taken, the innermost group and those around it. -/
structure Reading where
  flags : Flags
  captures : Nat
  names : List String
  level : Level
  outer : List Level
deriving DecidableEq, Repr

def Reading.start : Reading :=
  ⟨{}, 0, [], ⟨none, {}, [], []⟩, []⟩

def deepest (pieces : List Piece) : Nat :=
  (pieces.map (·.depth)).foldl max 0

/-- The pieces of an alternative, put one after the other. -/
def Level.branch (l : Level) : Piece :=
  match l.pieces with
  | [] => ⟨.empty, 0, true⟩
  | [piece] => piece
  | pieces => ⟨Expr.concat (pieces.reverse.map (·.expr)), 1 + deepest pieces, true⟩

/-- The alternatives of a group. -/
def Level.body (l : Level) : Piece :=
  let last := l.branch
  match (last :: l.branches).reverse with
  | [] => last
  | [piece] => piece
  | first :: rest =>
    ⟨Expr.choice first.expr (rest.map (·.expr)), 1 + max first.depth (deepest rest), true⟩

def Level.add (l : Level) (piece : Piece) : Level :=
  { l with pieces := piece :: l.pieces }

/-- The group as a piece of the group around it. -/
def Level.close (l : Level) : Piece :=
  let body := l.body
  match l.capture with
  | none => ⟨body.expr, body.depth + 1, true⟩
  | some (number, name) => ⟨.group number name body.expr, body.depth + 1, true⟩

namespace Reading

def add (r : Reading) (piece : Piece) : Reading :=
  { r with level := r.level.add piece }

/-- Opens a group. -/
def enter (r : Reading) (capture : Option (Nat × Option String)) (flags : Flags) :
    Reading :=
  { r with flags := flags, level := ⟨capture, r.flags, [], []⟩, outer := r.level :: r.outer }

/-- What a token does; `none` if it may not stand here. -/
def apply (r : Reading) : Token → Option Reading
  | .leaf e depth => some (r.add ⟨e, depth, true⟩)
  | .capture name =>
    if name.any r.names.contains then none
    else
      let number := r.captures + 1
      let names := name.toList ++ r.names
      some { r.enter (some (number, name)) r.flags with captures := number, names := names }
  | .plain flags => some (r.enter none flags)
  | .flags flags => some { r.add ⟨.empty, 0, false⟩ with flags := flags }
  | .close =>
    match r.outer with
    | [] => none
    | parent :: outer =>
      some { r with
        flags := r.level.outerFlags, level := parent.add r.level.close, outer := outer }
  | .bar =>
    let level := { r.level with branches := r.level.branch :: r.level.branches, pieces := [] }
    some { r with level := level }
  | .again min max lazy =>
    match r.level.pieces with
    | [] => none
    | piece :: pieces =>
      if piece.repeatable then
        let greedy := lazy == r.flags.swapGreed
        let loop := Expr.repeated min max greedy piece.expr
        some { r with level := { r.level with pieces := ⟨loop, piece.depth + 1, true⟩ :: pieces } }
      else none

end Reading

/-- Reads token by token up to the end of the text. -/
def readTokens (r : Reading) (cs : List Char) : Option Reading :=
  match hskip : r.flags.skip cs with
  | [] => some r
  | c :: tail =>
    match htoken : readToken r.flags (c :: tail) with
    | none => none
    | some (token, rest) =>
      have : rest.length < cs.length := by
        have hlt := length_lt_of_readToken htoken
        rw [← hskip] at hlt
        exact Nat.lt_of_lt_of_le hlt (r.flags.length_skip_le cs)
      match r.apply token with
      | none => none
      | some r => readTokens r rest
termination_by cs.length

theorem readTokens_of_skip_nil {r : Reading} {cs : List Char} (h : r.flags.skip cs = []) :
    readTokens r cs = some r := by
  rw [readTokens]
  split
  · rfl
  · next hskip => rw [h] at hskip; cases hskip

/-- A token is read, does what it does, and the rest follows. -/
theorem readTokens_of_readToken {r : Reading} {cs rest : List Char} {token : Token}
    (h : readToken r.flags (r.flags.skip cs) = some (token, rest)) :
    readTokens r cs = (r.apply token).bind fun r => readTokens r rest := by
  rw [readTokens]
  split
  · next hskip => rw [hskip] at h; cases h
  · next c tail hskip =>
    rw [hskip] at h
    split
    · next hnone => rw [hnone] at h; cases h
    · next token' rest' hsome =>
      obtain ⟨rfl, rfl⟩ := Prod.mk.inj (Option.some.inj (hsome.symm.trans h))
      cases r.apply token' <;> rfl

theorem readTokens_of_readToken_none {r : Reading} {cs tail : List Char} {c : Char}
    (hskip : r.flags.skip cs = c :: tail) (h : readToken r.flags (c :: tail) = none) :
    readTokens r cs = none := by
  rw [readTokens]
  split
  · next hnil => rw [hskip] at hnil; cases hnil
  · next d behind hcons =>
    rw [← hskip, hcons] at h
    split
    · rfl
    · next hsome => rw [h] at hsome; cases hsome

/-- How deeply the parts of an expression may be nested. -/
def nestingLimit : Nat := 250

/-- The whole expression, once every group is closed. -/
def Reading.finish [SizeLimit] (r : Reading) : Option Pattern :=
  let body := r.level.body
  if r.outer = [] ∧ body.depth ≤ nestingLimit ∧ Pattern.WithinLimit body.expr then
    some body.expr
  else none

theorem Reading.finish_eq_some_iff [SizeLimit] {r : Reading} {e : Pattern} :
    r.finish = some e ↔ r.outer = [] ∧ r.level.body.depth ≤ nestingLimit ∧
      Pattern.WithinLimit e ∧ r.level.body.expr = e := by
  unfold Reading.finish
  constructor
  · intro h
    dsimp only at h
    split at h
    · next hlimits =>
      obtain rfl := Option.some.inj h
      exact ⟨hlimits.1, hlimits.2.1, hlimits.2.2, rfl⟩
    · cases h
  · rintro ⟨houter, hdepth, hroom, rfl⟩
    exact if_pos ⟨houter, hdepth, hroom⟩

/-- The regular expression that a text writes, if it writes one. -/
def Pattern.ofText? [SizeLimit] (text : List Char) : Option Pattern :=
  (readTokens Reading.start text).bind Reading.finish

end UrlRouting.Regex
