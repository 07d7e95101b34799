import PlatformWiring.Source.Unit

/-!
# Imports of a source unit

A type is written by its simple name when that name is unambiguous. Of the mentioned
types that share a simple name the first one gets it, and the unit's own type always
keeps its name; all others are written in full. Types of the unit's package and of
`java.lang` need no import line.
-/

namespace PlatformWiring

/-- The package whose types never need an import. -/
def impliedPackage : String := "java.lang"

/-- Which types a unit writes by their simple names. -/
structure Imports where
  /-- the unit's own type -/
  own : TypeName
  /-- the other types written by simple name, no two of which share one -/
  simple : List TypeName
  deriving DecidableEq, Repr

namespace Imports

/-- The first type of each simple name. -/
def firstOfEach : List TypeName → List TypeName
  | [] => []
  | t :: rest => t :: (firstOfEach rest).filter fun u => decide (u.simple ≠ t.simple)

/-- The imports of a unit. -/
def ofUnit (u : SourceUnit) : Imports :=
  ⟨u.name, firstOfEach (u.mentioned.filter fun t => decide (t.simple ≠ u.name.simple))⟩

/-- What is written for a type. -/
def write (i : Imports) (t : TypeName) : String :=
  if t = i.own ∨ t ∈ i.simple then t.simple else t.qualified

/-- The type is written by its simple name and needs an import line for it. -/
def NeedsLine (i : Imports) (t : TypeName) : Bool :=
  decide (t.package ≠ i.own.package) && decide (t.package ≠ impliedPackage)

/-- The qualified names of the import lines, in order. -/
def lines (i : Imports) : List String :=
  ((i.simple.filter (i.NeedsLine ·)).map (·.qualified)).mergeSort fun a b => decide (a ≤ b)

end Imports

end PlatformWiring
