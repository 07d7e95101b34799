import PlatformWiring.CommandLine.Invocation
import PlatformWiring.Output.Session
import PlatformWiring.Round
import PlatformWiring.Wirefile.Read

/-!
# Projects

A project is what a Wirefile in the file tree describes, for the platforms that the user asks
for.
-/

namespace PlatformWiring.CommandLine

/-- What a round runs on. -/
structure Project where
  /-- the declared types and constructors -/
  catalog : Catalog
  /-- the platforms and the names of the generated types -/
  config : RoundConfig

/-- Why there is no project. -/
inductive ProjectError where
  /-- the path of the Wirefile names no file -/
  | noFileName (p : Path)
  /-- nothing stands at the path -/
  | notFound (name : String) (directory? : Option String)
  /-- the file cannot be read -/
  | unreadable (p : Path) (fault : Fault)
  /-- the file is no Wirefile -/
  | malformed (p : Path) (e : Wirefile.ReadError)
  /-- the types of the Wirefile give no catalog -/
  | noCatalog (p : Path) (e : CatalogError)

namespace ProjectError

/-- The place where a missing Wirefile was looked for, in words. -/
def place : Option String → String
  | some directory => "directory '" ++ directory ++ "'"
  | none => "the current directory"

/-- What a complaint about a file that is no Wirefile adds. -/
def details : Wirefile.ReadError → List String
  | .malformed d => [d.message, d.complaint.text]
  | .unsupportedVersion _ => []

/-- The complaint in words, followed by what caused it. -/
def chain : ProjectError → List String
  | .noFileName p => ["Wirefile path '" ++ p.text ++ "' has no file name"]
  | .notFound name directory? => ["Wirefile '" ++ name ++ "' not found in " ++ place directory?]
  | .unreadable p fault =>
    ["loading Wirefile at " ++ p.text, "failed to read Wirefile " ++ p.text, fault.message]
  | .malformed p e => ["loading Wirefile at " ++ p.text, e.message p.text] ++ details e
  | .noCatalog p e => ["reading types from " ++ p.text, e.message]

end ProjectError

namespace Invocation

/-- The path of the Wirefile. -/
def wirefilePath (i : Invocation) : Path := i.resolve i.file

/-- The Wirefile in a tree, with its path. -/
def wirefile (i : Invocation) (here : Location) (t : Tree) :
    Except ProjectError (Path × Wirefile) :=
  let p := i.wirefilePath
  match p.fileName? with
  | none => .error (.noFileName p)
  | some name =>
    if !t.hasEntry (.working here) p then
      .error (.notFound name (i.directory.map fun _ => (p.parent?.getD p).text))
    else
      match t.readText (.working here) p with
      | .error fault => .error (.unreadable p fault)
      | .ok text =>
        match Wirefile.read text with
        | .error e => .error (.malformed p e)
        | .ok w => .ok (p, w)

/-- The platforms to generate for: those of the user, or else those of the Wirefile. -/
def selection (i : Invocation) (w : Wirefile) : Selection :=
  if i.platforms.isEmpty then w.selection else .ofList i.platforms

/-- The project that a Wirefile describes. -/
def project (i : Invocation) (p : Path) (w : Wirefile) : Except ProjectError Project :=
  match w.catalog with
  | .error e => .error (.noCatalog p e)
  | .ok c => .ok ⟨c, ⟨i.selection w, w.layout⟩⟩

end Invocation

end PlatformWiring.CommandLine
