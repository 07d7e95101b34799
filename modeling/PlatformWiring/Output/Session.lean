import PlatformWiring.Digest
import PlatformWiring.Output.Files
import PlatformWiring.Output.Record
import PlatformWiring.Output.Sink
import PlatformWiring.Source.Render

/-!
# Sessions on an output root

A session begins by reading the record of an output root. It writes the sources whose
recorded digest differs from that of the new text, or whose file is gone, and it ends by
deleting the recorded sources that nobody asked for in between and by writing the new
record. Files that the record does not list are never touched. If somebody removes the root
in between, the session has lost it for good.

The operations that change files are passed in as a `Disk`, since a real disk may fail at
any of them.
-/

namespace PlatformWiring

/-- The two operations by which a session changes files below its root. -/
structure Disk where
  /-- makes or replaces a file, with the directories that lead to it -/
  save : Tree → Option Location → Path → String → Changed
  /-- removes a file -/
  delete : Tree → Option Location → Path → Changed

/-- Paths below an output root, which may have been removed. -/
def Start.below (root : Option Location) : Start := ⟨root, true⟩

/-- Paths as the user writes them, from a working directory. -/
def Start.working (here : Location) : Start := ⟨some here, false⟩

/-- The disk that fails only where the tree leaves it no choice. -/
def Disk.sound : Disk where
  save t root p text := t.saveText (.below root) p text
  delete t root p := t.removeFile (.below root) p

/-- A session on an output root. -/
structure Session where
  /-- the root, as the user wrote it -/
  root : Path
  /-- where the root is; nothing if it was removed -/
  base : Option Location
  /-- the sources of the record as it was last read or written, in order -/
  previous : List Path
  /-- the sources that the next record will list -/
  record : Record
  /-- the sources that somebody asked for -/
  attempted : List (List Path.Part)
  /-- the sources that were written -/
  written : List Path
  /-- the sources that were up to date -/
  unchanged : List Path
  /-- the sources that were deleted -/
  removed : List Path

namespace Session

/-- A session with nothing done yet. -/
def fresh (root : Path) (base : Location) (record : Record) : Session :=
  ⟨root, some base, record.paths, record, [], [], [], []⟩

/-- The record of an output root; an absent one is empty. -/
def loadRecord (t : Tree) (base : Location) : Except Fault Record :=
  match t.readText (.below (some base)) Record.fileName with
  | .ok text => .ok (Record.read text)
  | .error .notFound => .ok ∅
  | .error e => .error e

/-- Opens an output root from a working directory. The root is made if it is not there. -/
def start (here : Location) (t : Tree) (root : Path) : Except Fault Session × Tree :=
  match t.makeDirectories (.working here) root with
  | (.error e, t') => (.error e, t')
  | (.ok (), t') =>
    match t'.locateDirectory (.working here) root with
    | .error e => (.error e, t')
    | .ok base => ((loadRecord t' base).map (fresh root base), t')

/-- The session after others have changed files. A root that is gone is lost, even if a directory
is made at its place later. -/
def notice (s : Session) (t : Tree) : Session :=
  { s with base := s.base.filter t.hasDirectory }

/-- The source has the recorded digest, and its file is there. -/
def isCurrent (s : Session) (t : Tree) (p : Path) (digest : String) : Bool :=
  s.record.digest? p == some digest && t.isFile (.below s.base) p

/-- The log event of a source that was up to date. -/
def unchangedEvent (p : Path) : LogEvent :=
  ⟨.debug, "generated source unchanged", [("path", .text p.text)]⟩

/-- The log event of a source that was written. -/
def wroteEvent (s : Session) (u : SourceUnit) (digest : String) : LogEvent :=
  ⟨.info, "wrote " ++ u.describe,
    [("path", .text (s.root.join u.path).text), ("digest", .text digest)]⟩

/-- Writes the source of a unit unless it is up to date. -/
def write (disk : Disk) (s : Session) (t : Tree) (u : SourceUnit) : Written (Session × Tree) :=
  let text := u.render
  let digest := Digest.ofText text
  let asked := { s with attempted := s.attempted ++ [u.path.parts] }
  if s.isCurrent t u.path digest then
    ⟨({ asked with unchanged := s.unchanged ++ [u.path] }, t), .ok (), [unchangedEvent u.path]⟩
  else
    match disk.save t s.base u.path text with
    | (.error e, t') => ⟨({ asked with record := s.record.forget u.path }, t'), .error e, []⟩
    | (.ok (), t') =>
      ⟨({ asked with
          record := s.record.note u.path digest
          written := s.written ++ [u.path] }, t'),
        .ok (), [s.wroteEvent u digest]⟩

/-- The sink that writes into the session. -/
def sink (disk : Disk) : Sink (Session × Tree) where
  write st u := write disk st.1 st.2 u

/-- The recorded sources that nobody asked for. -/
def stale (s : Session) : List Path :=
  s.previous.filter fun p => decide (p.parts ∉ s.attempted)

/-- The log event of a source that was deleted. -/
def removedEvent (s : Session) (p : Path) : LogEvent :=
  ⟨.info, "removed stale source", [("path", .text (s.root.join p).text)]⟩

/-- Deletes sources. One that is gone already counts as deleted; any other fault ends it. -/
def discard (disk : Disk) (s : Session) (t : Tree) : List Path → Written (Session × Tree)
  | [] => ⟨(s, t), .ok (), []⟩
  | p :: rest =>
    let dropped := { s with record := s.record.forget p, removed := s.removed ++ [p] }
    match disk.delete t s.base p with
    | (.ok (), t') =>
      let w := discard disk dropped t' rest
      { w with events := s.removedEvent p :: w.events }
    | (.error .notFound, t') => discard disk dropped t' rest
    | (.error e, t') => ⟨(s, t'), .error e, []⟩

/-- Ends the session: deletes what is stale and writes the new record. -/
def finish (disk : Disk) (s : Session) (t : Tree) : Written (Session × Tree) :=
  match discard disk s t s.stale with
  | ⟨st, .error e, events⟩ => ⟨st, .error e, events⟩
  | ⟨(s', t'), .ok (), events⟩ =>
    let closed := { s' with previous := s'.record.paths }
    let (result, t'') := disk.save t' s.base Record.fileName s'.record.write
    ⟨(closed, t''), result, events⟩

end Session

end PlatformWiring
