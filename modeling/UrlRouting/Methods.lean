import UrlRouting.Text.Blank
import UrlRouting.Text.Letters
import UrlRouting.Text.Split

/-!
# Method sets

A route admits the methods of a set written with bars, such as `GET | POST`.
The request method must be one of them up to the case of ASCII letters; blanks
around the members of the set do not count, blanks in the request method do.
-/

namespace UrlRouting

/-- The set that stands for every usual method. -/
def allMethods : String := "GET|POST"

/-- The usual ways to register a route. -/
inductive Verb where
  | get
  | post
  | put
  | patch
  | delete
  | all
deriving DecidableEq, Repr

/-- The method set of a verb. -/
def Verb.methods : Verb → String
  | get => "GET"
  | post => "POST"
  | put => "PUT"
  | patch => "PATCH"
  | delete => "DELETE"
  | all => allMethods

def methodAllowed (methods request : List Char) : Bool :=
  (splitOn '|' methods).any fun method => sameIgnoringCase (trim method) request

/-- Whether a method set admits a request method. -/
def allowsMethod (methods request : String) : Bool :=
  methodAllowed methods.toList request.toList

/-- The characters, letters and digits apart, that a request method may hold. -/
def methodSigns : List Char :=
  ['!', '#', '$', '%', '&', '\'', '*', '+', '-', '.', '^', '_', '\x60', '|', '~']

/-- Whether a text can be the method of a request at all. -/
def isMethod (request : String) : Bool :=
  !request.isEmpty &&
    request.toList.all fun c => isAsciiAlphanumeric c || methodSigns.contains c

end UrlRouting
