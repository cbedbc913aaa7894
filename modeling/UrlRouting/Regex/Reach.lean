import UrlRouting.Regex.Positions

/-!
# From where an expression can succeed

Given the positions at which an expression may end, `Plan.starts` gives those at
which it may begin. It goes through the expression once, from its end to its
beginning, with whole sets of positions.
-/

namespace UrlRouting.Regex

/-- Adds `f s` to `s` again and again, until nothing is new or the rounds are used
up. -/
def spread (f : Positions → Positions) : Nat → Positions → Positions
  | 0, s => s
  | rounds + 1, s =>
    let more := s ||| f s
    if more = s then s else spread f rounds more

/-- Closes a set under `f`. Every round but the last adds a position below the
highest one, so there are at most as many rounds as positions. -/
def closure (f : Positions → Positions) (s : Positions) : Positions :=
  spread f (s.log2 + 2) s

/-- The sets `s`, `f s` and so on, `count` of them, with the last one first. -/
def stages {α : Type} (f : α → α) : Nat → α → List α → List α
  | 0, _, done => done
  | count + 1, s, done => stages f count (f s) (s :: done)

namespace Plan

/-- The positions from which an expression can reach one of `ends`. -/
def starts : Plan → Positions → Positions
  | .empty, ends => ends
  | .take leaf, ends => leaf &&& (ends >>> 1)
  | .test leaf, ends => leaf &&& ends
  | .group _ _ inner, ends => starts inner ends
  | .seq a b, ends => starts a (starts b ends)
  | .alt a b, ends => starts a ends ||| starts b ends
  | .loop min none _ body, ends => Nat.repeat (starts body) min (closure (starts body) ends)
  | .loop min (some max) _ body, ends =>
    Nat.repeat (starts body) min (Nat.repeat (fun s => ends ||| starts body s) (max - min) ends)

end Plan

end UrlRouting.Regex
