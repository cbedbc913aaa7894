import UrlRouting.Text.Blank
import UrlRouting.Unicode.Category
import UrlRouting.Unicode.PropertyData

/-!
# Letters, digits and word characters

The derived properties that names and the shorthand classes of a regular
expression are made of. For ASCII each of them is decided without a table.
-/

namespace UrlRouting.Unicode

def isAscii (c : Char) : Bool :=
  c.toNat < 128

def otherAlphabeticTable : Runs Bool := setOfGaps otherAlphabetic

def otherLowercaseTable : Runs Bool := setOfGaps otherLowercase

def otherUppercaseTable : Runs Bool := setOfGaps otherUppercase

/-- The property Alphabetic. -/
def isAlphabetic (c : Char) : Bool :=
  if isAscii c then c.isAlpha
  else
    let category := categoryOf c
    category.isLetter || category = .nl || otherAlphabeticTable.holds c

/-- The property Alphabetic, or one of the number categories. -/
def isAlphanumeric (c : Char) : Bool :=
  if isAscii c then c.isAlphanum else isAlphabetic c || (categoryOf c).isNumber

/-- A decimal digit of any script. -/
def isDecimalDigit (c : Char) : Bool :=
  if isAscii c then c.isDigit else categoryOf c = .nd

/-- A character of a word: alphabetic, a mark, a decimal digit, connecting
punctuation or a joiner. -/
def isWordChar (c : Char) : Bool :=
  if isAscii c then c.isAlphanum || c = '_'
  else
    let category := categoryOf c
    category.isMark || category = .nd || category = .pc ||
      c = '\u200c' || c = '\u200d' || isAlphabetic c

def isLowercase (c : Char) : Bool :=
  if isAscii c then c.isLower else categoryOf c = .ll || otherLowercaseTable.holds c

def isUppercase (c : Char) : Bool :=
  if isAscii c then c.isUpper else categoryOf c = .lu || otherUppercaseTable.holds c

end UrlRouting.Unicode
