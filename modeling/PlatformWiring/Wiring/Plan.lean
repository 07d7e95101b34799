import PlatformWiring.Wiring.Collision
import PlatformWiring.Wiring.Layout

/-!
# The plan of a round

The units of the wiring are planned before anything is written. Planning sorts the actions
and steps types, so that the plan does not depend on the order of declaration, and it fails
when derived names collide.
-/

namespace PlatformWiring

/-- Why the wiring cannot be planned. -/
inductive PlanError where
  /-- derived names collide -/
  | collisions (found : List Collision)
  /-- a steps type is unknown -/
  | unknownSteps (e : UnknownSteps)
  deriving DecidableEq, Repr

namespace PlanError

/-- The complaint in words. -/
def message : PlanError → String
  | .collisions found =>
    "generated identifiers collide: " ++ String.intercalate "; " (found.map (·.describe))
  | .unknownSteps e => e.message

/-- The stable identifier of the complaint. -/
def code : PlanError → String
  | .collisions _ => "stepwire::generate::naming_conflict"
  | .unknownSteps _ => UnknownSteps.code

/-- What to do about it. -/
def help? : PlanError → Option String
  | .collisions _ =>
    some "rename one of the listed types, or avoid requiring the same Actions type twice"
  | .unknownSteps _ => none

end PlanError

namespace Requirements

/-- The actions types in order. -/
def sortedActions (r : Requirements) : List TypeName := TypeName.sort r.actionsTypes

/-- The steps types in order. -/
def sortedSteps (r : Requirements) : List TypeName := TypeName.sort r.stepsTypes

/-- The constructors in the order of their steps types. -/
def sortedSignatures (r : Requirements) : Except UnknownSteps (List StepsSignature) :=
  r.sortedSteps.mapM fun steps => do return ⟨steps, ← r.requiredBy steps⟩

end Requirements

namespace Layout

/-- The units of the wiring, for lists that are used as they are. -/
def units (l : Layout) (platforms : Selection) (actions : List TypeName)
    (signatures : List StepsSignature) : List SourceUnit :=
  l.capabilityProvider actions :: platforms.toList.map (l.platformProvider actions) ++
    [l.actionsUnit actions, l.stepsUnit signatures, l.componentUnit (signatures.map (·.steps))]

/-- Plans the wiring of a requirement relation. -/
def plan (l : Layout) (platforms : Selection) (r : Requirements) :
    Except PlanError (List SourceUnit) :=
  match r.sortedSignatures with
  | .error e => .error (.unknownSteps e)
  | .ok signatures =>
    match Collision.all r.sortedActions signatures with
    | [] => .ok (l.units platforms r.sortedActions signatures)
    | found => .error (.collisions found)

end Layout

end PlatformWiring
