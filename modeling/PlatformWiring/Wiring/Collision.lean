import PlatformWiring.Requirements

/-!
# Collisions of derived names

Accessors and constructor parameters are named after types. Two types of one scope with
the same derived name would make the generated text wrong, so every such name is reported
with all the types it comes from.
-/

namespace PlatformWiring

/-- Where derived names have to differ. -/
inductive NameScope where
  /-- the accessors of actions types -/
  | actionsAccessors
  /-- the accessors of steps types -/
  | stepsAccessors
  /-- the constructor parameters of a steps type -/
  | parametersOf (steps : TypeName)
  deriving DecidableEq, Inhabited, Repr

/-- The scope in words. -/
def NameScope.describe : NameScope → String
  | .actionsAccessors => "actions accessors"
  | .stepsAccessors => "steps accessors"
  | .parametersOf steps => "constructor parameters of [" ++ steps.qualified ++ "]"

/-- A derived name that comes from more than one type. -/
structure Collision where
  /-- where the name occurs -/
  scope : NameScope
  /-- the name -/
  name : String
  /-- the types it comes from, with repeats -/
  sources : List TypeName
  deriving DecidableEq, Inhabited, Repr

namespace Collision

/-- The collision in words. -/
def describe (c : Collision) : String :=
  "'" ++ c.name ++ "' in " ++ c.scope.describe ++ " is derived from [" ++
    String.intercalate ", " (c.sources.map (·.qualified)) ++ "]"

/-- The collisions among the types of a scope, in the order of the names. -/
def among (scope : NameScope) (sources : List TypeName) : List Collision :=
  let names := (sources.map (·.accessor)).eraseDups.mergeSort fun a b => decide (a ≤ b)
  names.filterMap fun name =>
    let derived := sources.filter fun t => decide (t.accessor = name)
    if 1 < derived.length then some ⟨scope, name, derived⟩ else none

/-- The collisions of all scopes: actions, steps, then the parameters of each steps type. -/
def all (actions : List TypeName) (signatures : List StepsSignature) : List Collision :=
  among .actionsAccessors actions ++
    among .stepsAccessors (signatures.map (·.steps)) ++
    signatures.flatMap fun s => among (.parametersOf s.steps) s.actions

end Collision

end PlatformWiring
