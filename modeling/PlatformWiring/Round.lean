import PlatformWiring.Coverage
import PlatformWiring.Output.Sink
import PlatformWiring.Wiring.Plan

/-!
# Rounds

A round plans the wiring, checks platform coverage, hands the stubs and then the planned
units to a sink, and reports what it found. It stops before anything is written when no
platform is selected or the plan fails. A refused unit does not stop it.
-/

namespace PlatformWiring

universe u

/-- What a round is to generate. -/
structure RoundConfig where
  /-- the platforms -/
  platforms : Selection
  /-- the names of the generated types -/
  layout : Layout
  deriving DecidableEq, Repr

/-- Why a round stopped before anything was written. -/
inductive RoundError where
  /-- no platform is selected -/
  | noPlatforms
  /-- the plan failed -/
  | plan (e : PlanError)
  deriving DecidableEq, Repr

namespace RoundError

/-- The complaint in words. -/
def message : RoundError → String
  | .noPlatforms => EmptySelection.message
  | .plan e => e.message

/-- The stable identifier of the complaint. -/
def code : RoundError → String
  | .noPlatforms => EmptySelection.code
  | .plan e => e.code

/-- What to do about it. -/
def help? : RoundError → Option String
  | .noPlatforms => some EmptySelection.help
  | .plan e => e.help?

end RoundError

/-- What a round that ran to its end produced. -/
structure Outcome where
  /-- the number of steps types -/
  stepsCount : Nat
  /-- the coverage issues, warnings included -/
  issues : List Issue
  /-- the stubs that were written -/
  stubs : List TypeName
  /-- the wiring units that were written -/
  artifacts : List TypeName
  /-- what could not be written, stubs first -/
  failures : List WriteFailure
  deriving DecidableEq, Repr

namespace Outcome

/-- The outcome of a round with nothing to do. -/
def nothing : Outcome := ⟨0, [], [], [], []⟩

/-- No issue is an error and everything was written. -/
def isSuccess (o : Outcome) : Bool := o.failures.isEmpty && !o.issues.any (·.isError)

/-- The number of warnings. -/
def warningCount (o : Outcome) : Nat := (o.issues.filter fun i => !i.isError).length

/-- The number of errors: issues that are errors, and failed writes. -/
def errorCount (o : Outcome) : Nat := (o.issues.filter (·.isError)).length + o.failures.length

end Outcome

/-- The report of a failed write. -/
def WriteFailure.toReport (f : WriteFailure) : Report := ⟨.error, f.name.qualified, f.message⟩

/-- A round and what it left behind. -/
structure RoundResult (σ : Type u) where
  /-- the sink afterwards -/
  state : σ
  /-- the outcome, unless the round stopped early -/
  outcome : Except RoundError Outcome
  /-- what the round sent out, in order -/
  signals : List Signal

namespace Round

/-- The log event of a relation without steps types. -/
def idleEvent : LogEvent := ⟨.debug, "no steps declared; nothing to generate", []⟩

/-- The log event that shows the relation. -/
def relationEvent (r : Requirements) : LogEvent :=
  ⟨.debug, "structure model:\n" ++ r.render, [("steps", .count r.size)]⟩

/-- The log event of a finished plan. -/
def plannedEvent (units : List SourceUnit) : LogEvent :=
  ⟨.debug, "planned wiring artifacts", [("count", .count units.length)]⟩

/-- The log event of a finished round. -/
def finishedEvent (o : Outcome) : LogEvent :=
  ⟨.info, "round finished",
    [("artifacts", .count o.artifacts.length), ("stubs", .count o.stubs.length),
      ("warnings", .count o.warningCount), ("errors", .count o.errorCount)]⟩

variable {σ : Type u}

/-- Writes the stubs and then the planned units, and reports. The stubs that were written are those
asked for that no failed write names. -/
def emit (l : TypeLookup) (k : Sink σ) (s : σ) (config : RoundConfig) (r : Requirements)
    (units : List SourceUnit) : RoundResult σ :=
  let coverage := Coverage.check l config.platforms r.sortedActions
  let stubs := k.writeAll s (coverage.stubs.map (·.unit))
  let wiring := k.writeAll stubs.state units
  let outcome : Outcome :=
    { stepsCount := r.size
      issues := coverage.issues
      stubs := (coverage.stubs.map (·.stub)).filter fun stub =>
        !stubs.failures.any fun f => decide (f.name = stub)
      artifacts := wiring.written
      failures := stubs.failures ++ wiring.failures }
  { state := wiring.state
    outcome := .ok outcome
    signals :=
      [.event (relationEvent r), .event (plannedEvent units)] ++
        coverage.events.map .event ++ stubs.events.map .event ++
        coverage.issues.map (fun i => .report i.toReport) ++
        wiring.events.map .event ++
        outcome.failures.map (fun f => .report f.toReport) ++
        [.event (finishedEvent outcome)] }

/-- Runs a round for a requirement relation. -/
def runFor (l : TypeLookup) (k : Sink σ) (s : σ) (config : RoundConfig) (r : Requirements) :
    RoundResult σ :=
  if config.platforms.isEmpty then ⟨s, .error .noPlatforms, []⟩
  else if r.isEmpty then ⟨s, .ok .nothing, [.event idleEvent]⟩
  else
    match config.layout.plan config.platforms r with
    | .error e => ⟨s, .error (.plan e), [.event (relationEvent r)]⟩
    | .ok units => emit l k s config r units

/-- Runs a round for the declared constructors. -/
def run (l : TypeLookup) (k : Sink σ) (s : σ) (config : RoundConfig)
    (signatures : List StepsSignature) : RoundResult σ :=
  runFor l k s config (Requirements.ofSignatures signatures)

end Round

end PlatformWiring
