import UrlRouting.CommandLine.Grammar
import UrlRouting.Text.Split

/-!
# Reading arguments

Arguments are read from left to right. A value is looked at only when the next switch
or the URL is met, or at the end, so an unknown argument right behind a bad value is
what is reported. Behind two dashes alone every argument is taken as it is.
-/

namespace UrlRouting

/-- What a command is given. -/
inductive Item where
  | switch (s : Switch)
  | url
deriving DecidableEq, Repr

/-- The name and the value of a parameter, with an equals sign between them. -/
def paramOf (text : String) : Except UsageFault (String × String) :=
  match cutAt '=' text.toList with
  | none => .error (.malformedParam text .noEquals)
  | some ([], _) => .error (.malformedParam text .noKey)
  | some (key, value) => .ok (String.ofList key, String.ofList value)

/-- What was read of the arguments so far. -/
structure Reading where
  /-- What is given for sure, in order; a switch without a value has an empty one. -/
  given : List (Item × String)
  /-- The last item, if its value was not looked at or is still to come. -/
  pending : Option (Item × Option String)
  /-- Whether every argument is taken as it is. -/
  literal : Bool
deriving DecidableEq, Repr

namespace Reading

def empty : Reading := ⟨[], none, false⟩

/-- Whether a value is still to come. -/
def awaits (r : Reading) : Bool :=
  match r.pending with
  | some (_, none) => true
  | _ => false

def has (r : Reading) (item : Item) : Bool :=
  r.given.any (·.1 = item)

/-- The value of an item. -/
def value? (r : Reading) (item : Item) : Option String :=
  r.given.lookup item

def need (r : Reading) (item : Item) : Except UsageFault String :=
  match r.value? item with
  | some value => .ok value
  | none => .error .missingArgument

/-- What is wrong with the value of an item. -/
def checkValue (item : Item) (value : String) : Except UsageFault Unit :=
  match item with
  | .switch .routes => if value = "" then .error .missingValue else .ok ()
  | .switch .param => (paramOf value).map fun _ => ()
  | _ => .ok ()

/-- Gives an item its value. -/
def give (item : Item) (value : String) (r : Reading) : Except UsageFault Reading := do
  let repeats :=
    match item with
    | .switch s => s.repeats
    | .url => false
  if !repeats && r.has item then throw .repeated
  checkValue item value
  return { r with given := r.given ++ [(item, value)] }

/-- Looks at the value of the last item. -/
def settle (r : Reading) : Except UsageFault Reading :=
  match r.pending with
  | none => .ok r
  | some (_, none) => .error .missingValue
  | some (item, some value) => { r with pending := none }.give item value

/-- Waits for the value of a switch. -/
def await (s : Switch) (r : Reading) : Except UsageFault Reading := do
  return { (← r.settle) with pending := some (.switch s, none) }

/-- Takes a switch without a value. -/
def flag (s : Switch) (r : Reading) : Except UsageFault Reading := do
  let r ← r.settle
  if s = .help then throw .help else r.give (.switch s) ""

/-- Takes a switch with a value in the same argument. -/
def attach (s : Switch) (value : List Char) (r : Reading) :
    Except UsageFault Reading := do
  (← r.settle).give (.switch s) (String.ofList value)

/-- Reads a switch with two dashes. -/
def readLong (scope : Scope) (name : List Char) (value : Option (List Char))
    (r : Reading) :
    Except UsageFault Reading :=
  match scope.switches.find? (·.long = String.ofList name) with
  | none => .error .unknownArgument
  | some s =>
    match s.takesValue, value with
    | true, some value => r.attach s value
    | true, none => r.await s
    | false, some _ => .error .unexpectedValue
    | false, none => r.flag s

/-- Reads the letters behind one dash. What follows a switch that takes a value is
that value. -/
def readShort (scope : Scope) : List Char → Reading → Except UsageFault Reading
  | [], r => .ok r
  | c :: rest, r =>
    match scope.switches.find? (·.short? = some c) with
    | none => .error .unknownArgument
    | some s =>
      if s.takesValue then
        match rest with
        | [] => r.await s
        | '=' :: value => r.attach s value
        | value => r.attach s value
      else do readShort scope rest (← r.flag s)

/-- What is wrong with an argument that has no place. -/
def misplaced (scope : Scope) (literal : Bool) (arg : String) : UsageFault :=
  if scope = .top && !(literal && isCommandWord arg) then .unknownCommand else .unknownArgument

/-- Reads an argument that belongs to no switch. -/
def place (scope : Scope) (arg : List Char) (r : Reading) :
    Except UsageFault Reading := do
  let taken := r.has .url || r.pending.any (·.1 = .url)
  if scope.takesUrl && !taken then
    return { (← r.settle) with pending := some (.url, some (String.ofList arg)) }
  else throw (misplaced scope r.literal (String.ofList arg))

/-- Reads an argument. -/
def read (scope : Scope) (arg : List Char) (r : Reading) : Except UsageFault Reading :=
  if r.literal then r.place scope arg
  else
    match arg, r.pending with
    | ['-', '-'], _ => .ok { r with literal := true }
    | '-' :: '-' :: rest, _ =>
      match cutAt '=' rest with
      | some (name, value) => r.readLong scope name (some value)
      | none => r.readLong scope rest none
    | '-' :: c :: rest, _ => r.readShort scope (c :: rest)
    | _, some (item, none) => .ok { r with pending := some (item, some (String.ofList arg)) }
    | _, _ => r.place scope arg

/-- Reads arguments up to the end; before the command, up to its word. -/
def readAll (scope : Scope) :
    List String → Reading → Except UsageFault (Reading × List String)
  | [], r => .ok (r, [])
  | arg :: rest, r =>
    if scope = .top && !r.literal && !r.awaits && isCommandWord arg then .ok (r, arg :: rest)
    else do readAll scope rest (← r.read scope arg.toList)

end Reading

end UrlRouting
