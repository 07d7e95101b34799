import PlatformWiring.CommandLine.Arguments
import PlatformWiring.CommandLine.Execution
import PlatformWiring.Output.Change

/-!
# The program

The program takes a picture of the files that an invocation looks at: the Wirefile, and below
the output directory the record and the sources that it lists. It carries the invocation out
on this picture and makes on disk the changes that came of it.
-/

namespace PlatformWiring.CommandLine

/-- What the program says about itself. -/
def usage : String :=
  "Generates DI wiring between Steps and per-platform Actions\n\n" ++
  "Usage: stepwire [OPTIONS] [COMMAND]\n\n" ++
  "Commands:\n" ++
  "  generate [--out-dir DIR]  Validate platform coverage and write wiring sources (default)\n" ++
  "  check                     Validate platform coverage without writing anything\n" ++
  "  graph                     Print the Steps to Actions relation in DOT format\n" ++
  "  help                      Print this message\n\n" ++
  "Options:\n" ++
  "  -f, --file FILE           Path to the Wirefile [default: Wirefile.yml]\n" ++
  "  -C, --directory DIR       Resolve relative paths against this directory\n" ++
  "  -v, --verbose             Enable verbose logging output\n" ++
  "      --platform PLATFORM   Restrict the round to ios or droid; repeatable\n" ++
  "  -h, --help                Print help\n" ++
  "  -V, --version             Print version"

/-- The name and the version of the program. -/
def programVersion : String := "stepwire 0.1.0"

/-- The number that the system gives for reading a directory as a file. -/
def isDirectoryCode : UInt32 := 21

/-- What stands at a path on disk. -/
def entryOnDisk (path : String) : IO (Option Entry) := do
  try
    return some (.file (← IO.FS.readBinFile path))
  catch e => match e with
    | .noFileOrDirectory .. => return none
    | .inappropriateType _ code _ =>
      return if code = isDirectoryCode then some (.directory .empty) else none
    | e => throw e

/-- Adds to the picture what stands at a path. -/
def addFromDisk (here : Location) (t : Tree) (p : Path) : IO Tree := do
  match ← entryOnDisk p.text with
  | none => return t
  | some (.directory _) => return (t.makeDirectories (.working here) p).2
  | some (.file content) => return (t.saveBytes (.working here) p content).2

/-- The sources that a record lists; none if it is no record. -/
def recordedPaths : Option Entry → List Path
  | some (.file content) => ((String.fromUTF8? content).map fun s => (Record.read s).paths).getD []
  | _ => []

/-- The picture of an output directory. -/
def addOutput (here : Location) (t : Tree) (root : Path) : IO Tree := do
  let record := root.join Record.fileName
  let listed := recordedPaths (← entryOnDisk record.text)
  ([root, record] ++ listed.map root.join).foldlM (addFromDisk here) t

/-- The picture of all files that an invocation looks at. -/
def picture (here : Location) (i : Invocation) : IO Tree := do
  let t := Tree.empty.put (.directory .empty) here
  let t ← addFromDisk here t i.wirefilePath
  match i.command with
  | .generate directory => addOutput here t (i.resolve directory)
  | .check | .graph => return t

/-- The path of a location on disk. -/
def diskPath (at_ : Location) : String := "/" ++ String.intercalate "/" at_

/-- Makes a change on disk. -/
def apply : Change → IO Unit
  | .makeDirectory at_ => IO.FS.createDirAll (diskPath at_)
  | .writeFile at_ content => IO.FS.writeBinFile (diskPath at_) content
  | .removeFile at_ => IO.FS.removeFile (diskPath at_)

/-- A value of a log event as text. -/
def fieldText : LogValue → String
  | .text s => s
  | .count n => toString n

/-- A log event on one line. -/
def logLine (e : LogEvent) : String :=
  e.level.name ++ " " ++ e.message ++
    String.join (e.fields.map fun (name, v) => " " ++ name ++ "=" ++ fieldText v)

/-- Carries out an invocation on disk. The result is the exit code. -/
def execute (i : Invocation) : IO UInt32 := do
  let here := (Path.parts ⟨toString (← IO.FS.realPath ".")⟩).filterMap fun
    | .name s => some s
    | _ => none
  let before ← picture here i
  let e := i.run .sound here before
  (before.changes e.tree).forM apply
  (e.shownEvents i.verbose).forM fun event => IO.eprintln (logLine event)
  IO.print e.printed
  match e.failure? with
  | none => return 0
  | some failure =>
    IO.eprintln (logLine ⟨.error, "runner failed", [("error", .text failure.message)]⟩)
    return 1

/-- Reads the arguments and carries out what they ask for. The result is the exit code. -/
def runProgram (arguments : List String) : IO UInt32 := do
  match Invocation.ofArguments arguments with
  | .ok i => execute i
  | .error .displayHelp => IO.println usage; return 0
  | .error .displayVersion => IO.println programVersion; return 0
  | .error refusal =>
    IO.eprintln ("error: " ++ refusal.name ++ "\n\n" ++ usage)
    return 2

end PlatformWiring.CommandLine

/-- The program. -/
def main (arguments : List String) : IO UInt32 :=
  PlatformWiring.CommandLine.runProgram arguments
