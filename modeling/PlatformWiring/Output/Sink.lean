import PlatformWiring.Output.Fault
import PlatformWiring.Report
import PlatformWiring.Source.Unit

/-!
# Sinks for source units

A sink takes source units one at a time, keeps a state, and may refuse any unit. Writing a
list goes on past refusals and tells for each unit how it went.
-/

namespace PlatformWiring

universe u

/-- The outcome of handing a unit to a sink. -/
structure Written (σ : Type u) where
  /-- the sink afterwards -/
  state : σ
  /-- how it went -/
  result : Except Fault Unit
  /-- what the sink logged -/
  events : List LogEvent

/-- Something that takes source units. -/
structure Sink (σ : Type u) where
  /-- takes a unit -/
  write : σ → SourceUnit → Written σ

/-- A unit that was handed to a sink, and how it went. -/
structure Attempt where
  /-- the unit -/
  unit : SourceUnit
  /-- how it went -/
  result : Except Fault Unit

/-- A unit that could not be written. -/
structure WriteFailure where
  /-- its type -/
  name : TypeName
  /-- why -/
  fault : Fault
  deriving DecidableEq, Repr

/-- The complaint in words. -/
def WriteFailure.message (f : WriteFailure) : String :=
  "failed to create source file [" ++ f.name.qualified ++ "]: " ++ f.fault.message

namespace Attempt

/-- The type of the unit, if it was written. -/
def written? (a : Attempt) : Option TypeName :=
  match a.result with
  | .ok _ => some a.unit.name
  | .error _ => none

/-- The failure, if it was not written. -/
def failure? (a : Attempt) : Option WriteFailure :=
  match a.result with
  | .ok _ => none
  | .error f => some ⟨a.unit.name, f⟩

end Attempt

/-- The outcome of handing several units to a sink. -/
structure WrittenAll (σ : Type u) where
  /-- the sink afterwards -/
  state : σ
  /-- the units in order, with how it went -/
  attempts : List Attempt
  /-- what the sink logged -/
  events : List LogEvent

namespace WrittenAll

variable {σ : Type u}

/-- The types of the units that were written. -/
def written (w : WrittenAll σ) : List TypeName := w.attempts.filterMap (·.written?)

/-- The failures, in order. -/
def failures (w : WrittenAll σ) : List WriteFailure := w.attempts.filterMap (·.failure?)

/-- Every unit was written. -/
def isComplete (w : WrittenAll σ) : Bool := w.failures.isEmpty

end WrittenAll

namespace Sink

variable {σ : Type u}

/-- Hands the units to the sink one after the other, going on past refusals. -/
def writeAll (k : Sink σ) (s : σ) : List SourceUnit → WrittenAll σ
  | [] => ⟨s, [], []⟩
  | u :: us =>
    let first := k.write s u
    let rest := k.writeAll first.state us
    ⟨rest.state, ⟨u, first.result⟩ :: rest.attempts, first.events ++ rest.events⟩

/-- A sink in memory: it keeps the units that `refuse` finds no fault with. -/
def memory (refuse : SourceUnit → Option Fault) : Sink (List SourceUnit) where
  write kept u := match refuse u with
    | some fault => ⟨kept, .error fault, []⟩
    | none => ⟨kept ++ [u], .ok (), []⟩

end Sink

end PlatformWiring
