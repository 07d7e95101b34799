import PlatformWiring.Output.Walk

/-!
# Operations on files and directories

Reading, making and removing what a path leads to. An operation that fails may have changed
the tree before: directories that were made on the way stay, and so do removals.
-/

namespace PlatformWiring

/-- The outcome of an operation, and the tree after it. A failed operation may have changed the
tree. -/
abbrev Changed := Except Fault Unit × Tree

namespace Tree

/-- The bytes of a file. -/
def readBytes (t : Tree) (start : Start) (p : Path) : Except Fault ByteArray := do
  match ← t.find start p with
  | .directory _ => .error .isADirectory
  | .file content => return content

/-- The text of a file. -/
def readText (t : Tree) (start : Start) (p : Path) : Except Fault String := do
  match String.fromUTF8? (← t.readBytes start p) with
  | some s => return s
  | none => .error .notUtf8

/-- Makes one directory. -/
def makeDirectory (t : Tree) (start : Start) (p : Path) : Changed :=
  match t.target start p (lookedUp start p) with
  | .error e => (.error e, t)
  | .ok (.directory _) => (.error .alreadyExists, t)
  | .ok (.child parent inside s) =>
    match inside.find? s with
    | some _ => (.error .alreadyExists, t)
    | none => (.ok (), t.put (.directory .empty) (parent.locate s))

/-- Makes one directory; one that is there already is good too. -/
def ensureDirectory (t : Tree) (start : Start) (p : Path) : Changed :=
  match t.makeDirectory start p with
  | (.error e, t') => if t.isDirectory start p then (.ok (), t') else (.error e, t')
  | done => done

/-- Makes a directory. If the directory that is to hold it is missing, that one is made before, and
so on, `n` times at most. -/
def ensureDirectories (t : Tree) (start : Start) : Nat → Path → Changed
  | 0, _ => (.ok (), t)
  | n + 1, p =>
    match p.parent? with
    | none => (.ok (), t)
    | some above =>
      match t.ensureDirectory start p with
      | (.error .notFound, _) =>
        match t.ensureDirectories start n above with
        | (.ok (), t') => t'.ensureDirectory start p
        | failed => failed
      | done => done

/-- Makes a directory and those that lead to it. -/
def makeDirectories (t : Tree) (start : Start) (p : Path) : Changed :=
  t.ensureDirectories start p.parts.length p

/-- Makes a file with the content, or replaces the content of the file that is there. -/
def writeBytes (t : Tree) (start : Start) (p : Path) (content : ByteArray) : Changed :=
  match t.target start p p.text with
  | .error e => (.error e, t)
  | .ok (.directory _) => (.error .isADirectory, t)
  | .ok (.child parent inside s) =>
    if p.endsInSlash then (.error .isADirectory, t)
    else match inside.find? s with
      | some (.directory _) => (.error .isADirectory, t)
      | _ => (.ok (), t.put (.file content) (parent.locate s))

/-- Makes a file with the content, and the directories that lead to it. -/
def saveBytes (t : Tree) (start : Start) (p : Path) (content : ByteArray) : Changed :=
  match t.makeDirectories start (p.parent?.getD p) with
  | (.ok (), t') => t'.writeBytes start p content
  | failed => failed

/-- Makes a file with the text, and the directories that lead to it. -/
def saveText (t : Tree) (start : Start) (p : Path) (text : String) : Changed :=
  t.saveBytes start p text.toUTF8

/-- Removes a file. -/
def removeFile (t : Tree) (start : Start) (p : Path) : Changed :=
  match t.target start p (lookedUp start p) with
  | .error e => (.error e, t)
  | .ok (.directory _) => (.error .isADirectory, t)
  | .ok (.child parent inside s) =>
    match inside.find? s with
    | none => (.error .notFound, t)
    | some (.directory _) => (.error .isADirectory, t)
    | some (.file _) =>
      if p.endsInSlash then (.error .notADirectory, t) else (.ok (), t.drop (parent.locate s))

/-- Removes a directory that holds nothing any more. A path that leads nowhere once the directory
is empty, because it led through it, is no fault. -/
def removeEmptied (t : Tree) (start : Start) (p : Path) : Changed :=
  match t.target start p p.text with
  | .error .notFound => (.ok (), t)
  | .error e => (.error e, t)
  | .ok (.directory _) => (.error .invalidName, t)
  | .ok (.child parent _ s) => (.ok (), t.drop (parent.locate s))

/-- Removes a directory with everything in it. A directory that the path calls `.` or `..` is
emptied but cannot be removed. -/
def removeDirectory (t : Tree) (start : Start) (p : Path) : Changed :=
  match t.target start p p.text with
  | .error e => (.error e, t)
  | .ok (.directory place) =>
    removeEmptied (t.put (.directory .empty) place.location) start p
  | .ok (.child parent inside s) =>
    match inside.find? s with
    | none => (.error .notFound, t)
    | some (.file _) => (.error .notADirectory, t)
    | some (.directory _) =>
      removeEmptied (t.put (.directory .empty) (parent.locate s)) start p

end Tree

end PlatformWiring
