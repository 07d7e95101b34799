import PlatformWiring.Output.Path
import PlatformWiring.Platform

/-!
# Invocations

What the user asks for: a command, the project to run it on, and how much to tell. Without a
command, sources are generated into the directory for them.
-/

namespace PlatformWiring.CommandLine

/-- What can be done with a project. -/
inductive Command where
  /-- checks platform coverage and writes the wiring below a directory -/
  | generate (directory : Path)
  /-- checks platform coverage and writes nothing -/
  | check
  /-- prints the requirement relation as a graph -/
  | graph
  deriving DecidableEq, Inhabited, Repr

/-- The name of the file that describes the project, unless the user names another. -/
def defaultWirefile : Path := ⟨"Wirefile.yml"⟩

/-- The directory for generated sources, unless the user names another. -/
def defaultOutput : Path := ⟨"build/generated/stepwire"⟩

/-- What the user asks for. -/
structure Invocation where
  /-- the Wirefile -/
  file : Path
  /-- the directory that relative paths begin at -/
  directory : Option Path
  /-- everything is to be logged, not only problems -/
  verbose : Bool
  /-- the platforms, as often as they are named; they win over those of the Wirefile -/
  platforms : List Platform
  /-- the command, if there is one -/
  command? : Option Command
  deriving DecidableEq, Repr

namespace Invocation

/-- The invocation without any arguments. -/
def plain : Invocation := ⟨defaultWirefile, none, false, [], none⟩

/-- The command to carry out. -/
def command (i : Invocation) : Command := i.command?.getD (.generate defaultOutput)

/-- A path that the user wrote, as seen from the working directory. -/
def resolve (i : Invocation) (p : Path) : Path :=
  match i.directory with
  | none => p
  | some dir => dir.join p

end Invocation

end PlatformWiring.CommandLine
