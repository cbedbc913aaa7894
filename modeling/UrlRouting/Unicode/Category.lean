import UrlRouting.Unicode.CategoryData
import UrlRouting.Unicode.Runs

/-!
# General categories

Every code point has one of thirty general categories, named by two letters; the
first of them is the group that the category belongs to.
-/

namespace UrlRouting.Unicode

inductive Category where
  | lu | ll | lt | lm | lo
  | mn | mc | me
  | nd | nl | no
  | pc | pd | ps | pe | pi | pf | po
  | sm | sc | sk | so
  | zs | zl | zp
  | cc | cf | cs | co | cn
deriving DecidableEq, Repr

namespace Category

/-- Each category with its two letters and its long names. -/
def names : List (Category × String × List String) := [
  (.lu, "lu", ["uppercaseletter"]),
  (.ll, "ll", ["lowercaseletter"]),
  (.lt, "lt", ["titlecaseletter"]),
  (.lm, "lm", ["modifierletter"]),
  (.lo, "lo", ["otherletter"]),
  (.mn, "mn", ["nonspacingmark"]),
  (.mc, "mc", ["spacingmark"]),
  (.me, "me", ["enclosingmark"]),
  (.nd, "nd", ["decimalnumber", "digit"]),
  (.nl, "nl", ["letternumber"]),
  (.no, "no", ["othernumber"]),
  (.pc, "pc", ["connectorpunctuation"]),
  (.pd, "pd", ["dashpunctuation"]),
  (.ps, "ps", ["openpunctuation"]),
  (.pe, "pe", ["closepunctuation"]),
  (.pi, "pi", ["initialpunctuation"]),
  (.pf, "pf", ["finalpunctuation"]),
  (.po, "po", ["otherpunctuation"]),
  (.sm, "sm", ["mathsymbol"]),
  (.sc, "sc", ["currencysymbol"]),
  (.sk, "sk", ["modifiersymbol"]),
  (.so, "so", ["othersymbol"]),
  (.zs, "zs", ["spaceseparator"]),
  (.zl, "zl", ["lineseparator"]),
  (.zp, "zp", ["paragraphseparator"]),
  (.cc, "cc", ["control", "cntrl"]),
  (.cf, "cf", ["format"]),
  (.cs, "cs", ["surrogate"]),
  (.co, "co", ["privateuse"]),
  (.cn, "cn", ["unassigned"])]

def isLetter (c : Category) : Bool :=
  c ∈ [lu, ll, lt, lm, lo]

def isMark (c : Category) : Bool :=
  c ∈ [mn, mc, me]

def isNumber (c : Category) : Bool :=
  c ∈ [nd, nl, no]

/-- The groups of categories that have names of their own. -/
def groups : List (List String × List Category) := [
  (["l", "letter"], [lu, ll, lt, lm, lo]),
  (["lc", "casedletter"], [lu, ll, lt]),
  (["m", "mark", "combiningmark"], [mn, mc, me]),
  (["n", "number"], [nd, nl, no]),
  (["p", "punctuation", "punct"], [pc, pd, ps, pe, pi, pf, po]),
  (["s", "symbol"], [sm, sc, sk, so]),
  (["z", "separator"], [zs, zl, zp]),
  (["c", "other"], [cc, cf, cs, co, cn])]

def ofLetters (letters : String) : Category :=
  ((names.find? fun (_, short, _) => short = letters).map (·.1)).getD cn

end Category

/-- The general category of every code point. -/
def categoryTable : Runs Category :=
  Runs.ofLengths ((pieces categoryRuns).map fun piece =>
    (Category.ofLetters (String.ofList ((piece.take 2).map Char.toLower)),
      number36 (piece.drop 2)))

/-- The general category of a character. -/
def categoryOf (c : Char) : Category :=
  (categoryTable.get? c.toNat).getD .cn

end UrlRouting.Unicode
