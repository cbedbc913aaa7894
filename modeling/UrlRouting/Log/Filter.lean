import UrlRouting.Log.Directive
import UrlRouting.Settings.Variables
import UrlRouting.Text.Bytes

/-!
# Log filters

A filter is a list of directives, the most specific one first. The first directive
that fits the target and the fields of an event decides whether it is shown.
-/

namespace UrlRouting

structure LogFilter where
  /-- Directives on events, the most specific one first. -/
  directives : List Directive
  /-- How verbose the most verbose directive on events ever was. -/
  maxRank : Nat
  /-- The same for directives on spans. -/
  maxSpanRank : Nat
  /-- Whether a directive asks for the value of a field. -/
  asksValues : Bool
deriving DecidableEq, Repr

def rankOf (level : Option Level) : Nat :=
  (level.map Level.rank).getD 0

/-- Which of two directives comes first: one with a target, then the longer target,
then more fields, and else the greater one character by character. -/
def compareDirectives (a b : Directive) : Ordering :=
  let lengthOf (d : Directive) : Nat := (d.target.map fun t => byteCount t + 1).getD 0
  let textOf (d : Directive) : String := String.ofList (d.target.getD [])
  let fieldsOf (d : Directive) : List String := d.fields.map fun f => String.ofList f.1
  (compare (lengthOf b) (lengthOf a)).then <|
    (compare b.fields.length a.fields.length).then <|
      (compareOfLessAndEq (textOf b) (textOf a)).then <|
        compareOfLessAndEq (fieldsOf b) (fieldsOf a)

/-- Puts a directive in its place, over one for the same target and fields. -/
def placeDirective (d : Directive) : List Directive → List Directive
  | [] => [d]
  | other :: rest =>
    match compareDirectives d other with
    | .lt => d :: other :: rest
    | .eq => d :: rest
    | .gt => other :: placeDirective d rest

namespace LogFilter

def empty : LogFilter := ⟨[], 0, 0, false⟩

def add (f : LogFilter) (d : Directive) : LogFilter :=
  if d.isStatic then
    { f with
      directives := placeDirective d f.directives
      maxRank := max f.maxRank (rankOf d.level) }
  else
    { f with
      maxSpanRank := max f.maxSpanRank (rankOf d.level)
      asksValues := f.asksValues || d.fields.any (·.2) }

/-- The filter of a comma-separated list, if every directive in it can be read. -/
def ofText? (text : List Char) : Option LogFilter :=
  let pieces := (splitOn ',' text).filter (!·.isEmpty)
  (pieces.mapM Directive.ofText?).map fun directives => directives.foldl add empty

/-- Whether a directive fits an event. -/
def fits (d : Directive) (event : Event) : Bool :=
  (d.target.all fun target => target.isPrefixOf event.area.path.toList) &&
    d.fields.all fun field => event.fieldNames.contains (String.ofList field.1)

/-- Whether an event is shown. -/
def shows (f : LogFilter) (event : Event) : Bool :=
  (f.directives.find? (fits · event)).any fun d => event.level.rank ≤ rankOf d.level

/-- The most verbose level that can be shown at all. -/
def maxLevel (f : LogFilter) : Option Level :=
  let rank := if f.asksValues then Level.trace.rank else max f.maxRank f.maxSpanRank
  Level.all.find? fun level => level.rank = rank

end LogFilter

/-- The filter of the settings, and the parts of the target filter that are no
directives. The variable `RUST_LOG` goes over the level of the settings if all of it
can be read. -/
def LogSettings.filter (s : LogSettings) (vars : Variables) : LogFilter × List String :=
  let usual := LogFilter.empty.add ⟨none, none, [], some s.maxLevel⟩
  let base := ((vars "RUST_LOG").bind fun text => LogFilter.ofText? text.toList).getD usual
  let parts := (splitOn ',' (s.targetFilter.getD "").toList).map trim
  let (filter, refused) := (parts.filter (!·.isEmpty)).foldl
    (fun (filter, refused) part =>
      match Directive.ofText? part with
      | some d => (LogFilter.add filter d, refused)
      | none => (filter, String.ofList part :: refused))
    (base, [])
  (filter, refused.reverse)

end UrlRouting
