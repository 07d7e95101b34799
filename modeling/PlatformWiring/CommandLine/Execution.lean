import PlatformWiring.CommandLine.Project

/-!
# Carrying out invocations

Commands work on a file tree. What they print, what they log and why they fail is part of
their result. A command that fails may have changed the tree before: when a round reports
errors, everything that could be generated is there.
-/

namespace PlatformWiring.CommandLine

/-- Why a command failed. -/
inductive Failure where
  /-- there is no project -/
  | project (e : ProjectError)
  /-- the output directory cannot be opened -/
  | opening (directory : Path) (fault : Fault)
  /-- the round stopped before anything was written -/
  | aborted (e : RoundError)
  /-- stale sources could not be deleted or the record could not be written -/
  | recording (directory : Path) (fault : Fault)
  /-- the round reported errors -/
  | reported (errors warnings : Nat)

namespace Failure

/-- The complaint in words, followed by what caused it. -/
def chain : Failure → List String
  | .project e => e.chain
  | .opening directory fault => ["opening output directory " ++ directory.text, fault.message]
  | .aborted e => ["generation round aborted", e.message]
  | .recording directory fault =>
    ["recording generated sources in " ++ directory.text, fault.message]
  | .reported errors warnings =>
    ["generation failed with " ++ toString errors ++ " error(s) and " ++ toString warnings ++
      " warning(s)"]

/-- The complaint and its causes in one line. -/
def message (f : Failure) : String := String.intercalate ": " f.chain

end Failure

/-- What a command did. -/
structure Execution where
  /-- the tree afterwards -/
  tree : Tree
  /-- why it failed, if it did -/
  failure? : Option Failure
  /-- what it printed -/
  printed : String
  /-- what it logged, in order -/
  events : List LogEvent

/-! ## Log events -/

/-- The log event of a Wirefile that was read. -/
def loadedEvent (p : Path) (w : Wirefile) : LogEvent :=
  ⟨.debug, "loaded Wirefile",
    [("name", .text p.text), ("types", .count w.types.length),
      ("steps", .count w.steps.length)]⟩

/-- A platform as log events show it. -/
def shown : Platform → String
  | .ios => "Ios"
  | .droid => "Droid"

/-- The log event that shows the selected platforms. -/
def selectionEvent (s : Selection) : LogEvent :=
  ⟨.debug, "platform selection",
    [("platforms",
      .text ("PlatformSet([" ++ String.intercalate ", " (s.toList.map shown) ++ "])"))]⟩

/-- The log event of sources that were generated. -/
def generatedEvent (s : Session) (o : Outcome) : LogEvent :=
  ⟨.info, "generated wiring sources",
    [("out_dir", .text s.root.text), ("written", .count s.written.length),
      ("unchanged", .count s.unchanged.length), ("removed", .count s.removed.length),
      ("stubs", .count o.stubs.length)]⟩

/-- The log event of a project without errors. -/
def completeEvent (o : Outcome) : LogEvent :=
  ⟨.info, "platform coverage is complete",
    [("steps", .count o.stepsCount), ("warnings", .count o.warningCount)]⟩

/-! ## Commands -/

/-- The failure that the reports of a round amount to. -/
def reported? (o : Outcome) : Option Failure :=
  if o.isSuccess then none else some (.reported o.errorCount o.warningCount)

namespace Project

/-- A round with all that it logs; reports are logged too. -/
def round {σ : Type} (project : Project) (k : Sink σ) (s : σ) :
    σ × Except RoundError Outcome × List LogEvent :=
  let c := project.catalog
  let result := Round.run c.lookup k s project.config c.signatures
  (result.state, result.outcome, result.signals.map (·.toEvent))

/-- Generates sources below a directory. -/
def generate (project : Project) (disk : Disk) (here : Location) (t : Tree) (directory : Path) :
    Execution :=
  match Session.start here t directory with
  | (.error fault, t) => ⟨t, some (.opening directory fault), "", []⟩
  | (.ok s, t) =>
    match project.round (Session.sink disk) (s, t) with
    | ((_, t), .error e, events) => ⟨t, some (.aborted e), "", events⟩
    | ((s, t), .ok o, events) =>
      match Session.finish disk s t with
      | ⟨(_, t), .error fault, more⟩ =>
        ⟨t, some (.recording directory fault), "", events ++ more⟩
      | ⟨(s, t), .ok (), more⟩ =>
        ⟨t, reported? o, "", events ++ more ++ [generatedEvent s o]⟩

/-- Checks platform coverage. -/
def check (project : Project) (t : Tree) : Execution :=
  match project.round (Sink.memory fun _ => none) [] with
  | (_, .error e, events) => ⟨t, some (.aborted e), "", events⟩
  | (_, .ok o, events) =>
    match reported? o with
    | some failure => ⟨t, some failure, "", events⟩
    | none => ⟨t, none, "", events ++ [completeEvent o]⟩

/-- Prints the requirement relation. -/
def graph (project : Project) (t : Tree) : Execution :=
  ⟨t, none, (Requirements.ofSignatures project.catalog.signatures).dot, []⟩

/-- Carries out a command. -/
def carryOut (project : Project) (disk : Disk) (i : Invocation) (here : Location) (t : Tree) :
    Command → Execution
  | .generate directory => project.generate disk here t (i.resolve directory)
  | .check => project.check t
  | .graph => project.graph t

end Project

namespace Execution

/-- An execution with something logged before it. -/
def after (events : List LogEvent) (e : Execution) : Execution :=
  { e with events := events ++ e.events }

/-- What is shown of the log: problems, or everything. -/
def shownEvents (e : Execution) (verbose : Bool) : List LogEvent :=
  e.events.filter fun event => verbose || event.level.isProblem

end Execution

/-- Carries out an invocation on a tree, in a working directory. -/
def Invocation.run (disk : Disk) (i : Invocation) (here : Location) (t : Tree) : Execution :=
  match i.wirefile here t with
  | .error e => ⟨t, some (.project e), "", []⟩
  | .ok (p, w) =>
    match i.project p w with
    | .error e => ⟨t, some (.project e), "", [loadedEvent p w]⟩
    | .ok project =>
      (project.carryOut disk i here t i.command).after
        [loadedEvent p w, selectionEvent project.config.platforms]

end PlatformWiring.CommandLine
