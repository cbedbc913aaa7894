import UrlRouting.Dictionary

/-!
# Match types

A match type gives the regular expression that the value of a block has to
match. Six are built in; a table starts with them, and every later entry goes
over an earlier one of the same name.
-/

namespace UrlRouting

abbrev MatchTypes := Dictionary

/-- The match types that every table starts with. -/
def builtInTypes : List (String × String) := [
  ("i", "[0-9]+"),
  ("a", "[0-9A-Za-z]+"),
  ("h", "[0-9A-Fa-f]+"),
  ("*", ".+?"),
  ("**", ".+"),
  ("", "[^/\\.]+")]

def MatchTypes.builtIn : MatchTypes :=
  Dictionary.ofList builtInTypes

end UrlRouting
