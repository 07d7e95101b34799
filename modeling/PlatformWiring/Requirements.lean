import PlatformWiring.OrderedMap
import PlatformWiring.TypeName

/-!
# What steps require

A steps type asks for actions types in its constructor. The relation is recorded one
requirement or one whole constructor at a time; it keeps the order in which steps types
were first mentioned and, for each of them, every requirement in the order it was
recorded, repeats included.
-/

namespace PlatformWiring

/-- The constructor of a steps type: the actions types it takes, in order. -/
structure StepsSignature where
  /-- the steps type -/
  steps : TypeName
  /-- its constructor parameters -/
  actions : List TypeName
  deriving DecidableEq, Inhabited, Repr

/-- A steps type that the relation does not know. -/
structure UnknownSteps where
  /-- the type asked about -/
  steps : TypeName
  deriving DecidableEq, Repr

namespace UnknownSteps

/-- The complaint in words. -/
def message (e : UnknownSteps) : String :=
  "steps type [" ++ e.steps.qualified ++ "] was never recorded in the structure model"

/-- The stable identifier of the complaint. -/
def code : String := "stepwire::structure::unknown_steps"

end UnknownSteps

/-- The relation between steps types and the actions types they require. -/
structure Requirements where
  /-- for each steps type its requirements, in the order they were recorded -/
  entries : OrderedMap TypeName (List TypeName)

namespace Requirements

/-- The relation without steps types. -/
def empty : Requirements := ⟨∅⟩

instance : Inhabited Requirements := ⟨empty⟩

/-- Adds requirements of a steps type after those it already has. -/
def extend (r : Requirements) (steps : TypeName) (actions : List TypeName) : Requirements :=
  ⟨r.entries.alter steps fun old => old.getD [] ++ actions⟩

/-- Records that `steps` requires `action`. -/
def require (r : Requirements) (steps action : TypeName) : Requirements :=
  r.extend steps [action]

/-- Records a whole constructor; one without parameters still mentions its type. -/
def declare (r : Requirements) (d : StepsSignature) : Requirements :=
  r.extend d.steps d.actions

/-- The relation of a list of constructors. -/
def ofSignatures (ds : List StepsSignature) : Requirements :=
  ds.foldl declare empty

/-- The number of steps types. -/
def size (r : Requirements) : Nat := r.entries.size

/-- No steps type is recorded. -/
def isEmpty (r : Requirements) : Bool := r.entries.isEmpty

/-- The requirements of a steps type, repeats included. -/
def requiredBy (r : Requirements) (steps : TypeName) : Except UnknownSteps (List TypeName) :=
  match r.entries.find? steps with
  | some actions => .ok actions
  | none => .error ⟨steps⟩

/-- Every steps type, by first mention. -/
def stepsTypes (r : Requirements) : List TypeName := r.entries.keys

/-- Every required actions type once, by first occurrence along the entries. -/
def actionsTypes (r : Requirements) : List TypeName := r.entries.values.flatten.eraseDups

/-! ## Written forms -/

/-- One line per steps type with its requirements. -/
def render (r : Requirements) : String :=
  String.join (r.entries.entries.map fun (steps, actions) =>
    steps.qualified ++ ": [" ++ String.intercalate ", " (actions.map (·.qualified)) ++ "]\n")

/-- The node line of a steps type and one edge line for each type it requires. -/
def dotLines (steps : TypeName) (actions : List TypeName) : List String :=
  ("  \"" ++ steps.qualified ++ "\" [shape=box];\n") ::
    (TypeName.sortDistinct actions).map fun action =>
      "  \"" ++ steps.qualified ++ "\" -> \"" ++ action.qualified ++ "\";\n"

/-- The relation as a directed graph in the DOT language, in the order of names. -/
def dot (r : Requirements) : String :=
  let lines := (TypeName.sort r.stepsTypes).flatMap fun steps =>
    dotLines steps ((r.entries.find? steps).getD [])
  String.join (["digraph stepwire \x7b\n"] ++ lines ++ ["\x7d\n"])

end Requirements

end PlatformWiring
