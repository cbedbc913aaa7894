import UrlRouting.Document.Basic
import UrlRouting.Text.Letters
import UrlRouting.Text.Split

/-!
# Scalars without quotes

Truth values, numbers, dates and times. Of the first two all that is asked is whether a
text is one of them. A date or time is a table with one entry, which holds its usual
form.
-/

namespace UrlRouting.Toml

/-- Digits of a base, single low lines between them taken out. -/
def groupedDigits? (base : Nat) (cs : List Char) : Option (List Char) :=
  let groups := splitOn '_' cs
  if groups.all (fun group => !group.isEmpty && group.all fun c => (digitValue base c).isSome) then
    some groups.flatten
  else none

/-- The sign of a number, and what follows it. -/
def cutSign : List Char → Bool × List Char
  | '-' :: rest => (true, rest)
  | '+' :: rest => (false, rest)
  | cs => (false, cs)

/-- The digits of a decimal number, which has no zero in front. -/
def decimalDigits? (cs : List Char) : Option (List Char) :=
  (groupedDigits? 10 cs).filter fun digits => digits = ['0'] || digits.head? ≠ some '0'

/-- Whether a whole number fits the widest integers there are. -/
def fitsInteger (negative : Bool) (n : Nat) : Bool :=
  if negative then n ≤ 1 <<< 127 else n < 1 <<< 128

def isInteger (cs : List Char) : Bool :=
  let valued (negative : Bool) (base : Nat) (digits : Option (List Char)) : Bool :=
    (digits.bind (numberValue base)).any (fitsInteger negative)
  match cs with
  | '0' :: 'x' :: rest => valued false 16 (groupedDigits? 16 rest)
  | '0' :: 'o' :: rest => valued false 8 (groupedDigits? 8 rest)
  | '0' :: 'b' :: rest => valued false 2 (groupedDigits? 2 rest)
  | cs =>
    let (negative, rest) := cutSign cs
    valued negative 10 (decimalDigits? rest)

/-- Whether `mantissa` times ten to the power of `exponent` rounds to a finite number
of double precision. -/
def isFinite (mantissa : Nat) (exponent : Int) : Bool :=
  let limit : Nat := (1 <<< 1024) - (1 <<< 970)
  if mantissa = 0 then true
  else if exponent ≤ 0 then
    if mantissa.log2 < 1000 then true
    else mantissa < limit * Nat.pow 10 exponent.natAbs
  else if exponent > 400 then false
  else mantissa * Nat.pow 10 exponent.natAbs < limit

def isFloat (cs : List Char) : Bool :=
  let (_, rest) := cutSign cs
  if rest = ['i', 'n', 'f'] || rest = ['n', 'a', 'n'] then true
  else
    let number := rest.takeWhile fun c => c ≠ 'e' && c ≠ 'E'
    let power := rest.drop number.length
    let exponent : Option Int :=
      match power with
      | [] => some 0
      | _ :: power =>
        let (negative, digits) := cutSign power
        ((groupedDigits? 10 digits).bind (numberValue 10)).map fun n =>
          if negative then -(Int.ofNat n) else Int.ofNat n
    let parts : Option (List Char × List Char) :=
      match splitOn '.' number with
      | [whole] => if power = [] then none else (decimalDigits? whole).map (·, [])
      | [whole, fraction] => do return (← decimalDigits? whole, ← groupedDigits? 10 fraction)
      | _ => none
    match exponent, parts with
    | some exponent, some (whole, fraction) =>
      (numberValue 10 (whole ++ fraction)).any fun n =>
        isFinite n (exponent - Int.ofNat fraction.length)
    | _, _ => false

/-- Reads exactly `count` decimal digits. -/
def fixedNumber? (count : Nat) (cs : List Char) : Option (Nat × List Char) :=
  let digits := cs.take count
  if digits.length = count && digits.all Char.isDigit then
    (numberValue 10 digits).map (·, cs.drop count)
  else none

def daysOf (year month : Nat) : Nat :=
  if month = 2 then
    if year % 4 = 0 && (year % 100 ≠ 0 || year % 400 = 0) then 29 else 28
  else if [4, 6, 9, 11].contains month then 30
  else 31

/-- Passes over a date. -/
def skipDate? (cs : List Char) : Option (List Char) := do
  let (year, rest) ← fixedNumber? 4 cs
  let ('-' :: rest) := rest | none
  let (month, rest) ← fixedNumber? 2 rest
  let ('-' :: rest) := rest | none
  let (day, rest) ← fixedNumber? 2 rest
  if 1 ≤ month && month ≤ 12 && 1 ≤ day && day ≤ daysOf year month then return rest else none

/-- Passes over hours and minutes. -/
def skipClock? (cs : List Char) : Option (List Char) := do
  let (hour, rest) ← fixedNumber? 2 cs
  let (':' :: rest) := rest | none
  let (minute, rest) ← fixedNumber? 2 rest
  if hour ≤ 23 && minute ≤ 59 then return rest else none

/-- Passes over a time of day; seconds and their fraction may be missing. -/
def skipTime? (cs : List Char) : Option (List Char) := do
  let rest ← skipClock? cs
  let (':' :: rest) := rest | return rest
  let (second, rest) ← fixedNumber? 2 rest
  if second > 60 then none
  else
    let ('.' :: rest) := rest | return rest
    let left := rest.dropWhile Char.isDigit
    if left.length = rest.length then none else return left

/-- Whether a text is empty or an offset from universal time. -/
def isOffset : List Char → Bool
  | [] => true
  | ['Z'] => true
  | ['z'] => true
  | '+' :: rest => skipClock? rest = some []
  | '-' :: rest => skipClock? rest = some []
  | _ => false

def isDateOrTime (cs : List Char) : Bool :=
  match skipDate? cs with
  | some [] => true
  | some (c :: rest) =>
    (c = 'T' || c = 't' || c = ' ') && (skipTime? rest).any isOffset
  | none => skipTime? cs = some []

/-- The fraction of a second in its usual form: nine digits at most, without zeros at
its end. -/
def usualFraction (digits : List Char) : List Char :=
  let kept := ((digits.take 9).reverse.dropWhile (· = '0')).reverse
  '.' :: if kept = [] then ['0'] else kept

/-- The offset from universal time in its usual form. -/
def usualOffset (cs : List Char) : List Char :=
  if cs = ['z'] then ['Z'] else if cs = ['-', '0', '0', ':', '0', '0'] then '+' :: cs.tail else cs

/-- A date or time in its usual form. -/
def usualMoment (cs : List Char) : List Char :=
  let date := if (skipDate? cs).isSome then cs.take 10 else []
  let rest := cs.drop date.length
  let (mark, rest) := if date = [] || rest = [] then ([], rest) else (['T'], rest.tail)
  let clock := rest.takeWhile fun c => c.isDigit || c = ':'
  let rest := rest.drop clock.length
  match rest with
  | '.' :: rest =>
    date ++ mark ++ clock ++ usualFraction (rest.takeWhile Char.isDigit) ++
      usualOffset (rest.dropWhile Char.isDigit)
  | rest => date ++ mark ++ clock ++ usualOffset rest

/-- The key under which a date or time stands. -/
def momentKey : String := "$__toml_private_datetime"

def isTruth (cs : List Char) : Bool :=
  cs = ['t', 'r', 'u', 'e'] || cs = ['f', 'a', 'l', 's', 'e']

/-- The document of a text without quotes, if it is a value. -/
def scalarOf? (cs : List Char) : Option Document :=
  if isDateOrTime cs then some (.table [(.text momentKey, .text (String.ofList (usualMoment cs)))])
  else if isTruth cs || isInteger cs || isFloat cs then some .other
  else none

example : usualMoment "1979-05-27 07:32:00.500z".toList = "1979-05-27T07:32:00.5Z".toList := by
  decide

end UrlRouting.Toml
