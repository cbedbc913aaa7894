import UrlRouting.Template.Basic

/-!
# Routing errors

The ways in which a template, a registration or a reverse lookup can fail, and
the one sentence that reports each of them.
-/

namespace UrlRouting

inductive RouteError where
  /-- A block names a match type that the table does not have. -/
  | unknownMatchType (typeName template : String)
  /-- The template is malformed. -/
  | malformedTemplate (template : String) (defect : Defect)
  /-- The pattern of the template is no regular expression; `detail` says why. -/
  | invalidPattern (template pattern detail : String)
  /-- Another route already carries the name. -/
  | duplicateName (name : String)
  /-- No route carries the name. -/
  | unknownName (name : String)
deriving DecidableEq, Repr

def RouteError.message : RouteError → String
  | .unknownMatchType typeName template =>
    s!"Unknown match type '{typeName}' in route template '{template}'. " ++
      "Register the alias before mapping the route."
  | .malformedTemplate template defect =>
    s!"Malformed route template '{template}' at byte {defect.position}: " ++ defect.flaw.reason
  | .invalidPattern template pattern detail =>
    s!"Route template '{template}' compiled to an invalid pattern '{pattern}': {detail}"
  | .duplicateName name => s!"Can not redeclare route '{name}'"
  | .unknownName name => s!"Route '{name}' does not exist."

end UrlRouting
