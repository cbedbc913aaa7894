import UrlRouting.Unicode.Letter

/-!
# Looking at a position

An assertion takes no character; it holds or fails at a position. All that it
looks at are the characters right before and right after the position, which are
absent at the ends of the text.
-/

namespace UrlRouting.Regex

inductive Look where
  | textStart
  | textEnd
  | lineStart
  | lineEnd
  /-- Line bounds where a carriage return with a line feed is one line end. -/
  | lineStartCrlf
  | lineEndCrlf
  | wordBound (ascii : Bool)
  | notWordBound (ascii : Bool)
  | wordStart (ascii : Bool)
  | wordEnd (ascii : Bool)
  | wordStartHalf (ascii : Bool)
  | wordEndHalf (ascii : Bool)
deriving DecidableEq, Repr

/-- Whether a neighbour of a position belongs to a word. -/
def inWord (ascii : Bool) (neighbour : Option Char) : Bool :=
  neighbour.any fun c => Unicode.isWordChar c && (!ascii || Unicode.isAscii c)

/-- Whether an assertion holds between two neighbours. -/
def Look.holds (before after : Option Char) : Look → Bool
  | textStart => before.isNone
  | textEnd => after.isNone
  | lineStart => before.isNone || before = some '\n'
  | lineEnd => after.isNone || after = some '\n'
  | lineStartCrlf =>
    before.isNone || before = some '\n' || (before = some '\r' && after ≠ some '\n')
  | lineEndCrlf =>
    after.isNone || after = some '\r' || (after = some '\n' && before ≠ some '\r')
  | wordBound ascii => inWord ascii before != inWord ascii after
  | notWordBound ascii => inWord ascii before == inWord ascii after
  | wordStart ascii => !inWord ascii before && inWord ascii after
  | wordEnd ascii => inWord ascii before && !inWord ascii after
  | wordStartHalf ascii => !inWord ascii before
  | wordEndHalf ascii => !inWord ascii after

end UrlRouting.Regex
