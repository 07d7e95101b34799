import PlatformWiring.Output.Fault
import PlatformWiring.Output.Path
import PlatformWiring.Output.Tree

/-!
# Walking paths

Paths are walked part by part from a starting directory. Inside an output root the walk is
confined: it refuses to leave the root, whether by a leading slash or by `..`. A root that
was removed still serves as a starting directory, but nothing can be found or made in it.
-/

namespace PlatformWiring

/-- Where walks begin, and whether they may leave that directory. -/
structure Start where
  /-- the directory; nothing if it was removed -/
  base : Option Location
  /-- paths may not lead out of it -/
  confined : Bool
  deriving DecidableEq, Repr

/-- A directory that a walk has reached. -/
structure Place where
  /-- the top directory; nothing if the walk began in a directory that was removed -/
  top : Option Tree
  /-- the directories below the top that were entered, the last one first -/
  entered : List (String × Tree)

/-- The longest name of an entry, in bytes. -/
def maxNameLength : Nat := 255

namespace Place

/-- What the directory holds; nothing if it was removed. -/
def inside? (p : Place) : Option Tree :=
  match p.entered with
  | [] => p.top
  | (_, t) :: _ => some t

/-- The location of the directory. -/
def location (p : Place) : Location := (p.entered.map Prod.fst).reverse

/-- The location of a name in the directory. -/
def locate (p : Place) (name : String) : Location := p.location ++ [name]

/-- The directory of a name. -/
def enter (p : Place) (name : String) : Except Fault Place :=
  match p.inside? with
  | none => .error .notFound
  | some t =>
    if maxNameLength < name.utf8ByteSize then .error .nameTooLong
    else match t.find? name with
      | none => .error .notFound
      | some (.file _) => .error .notADirectory
      | some (.directory below) => .ok { p with entered := (name, below) :: p.entered }

end Place

namespace Tree

/-- The starting directory as a place. -/
def startingPlace (t : Tree) (start : Start) : Except Fault Place :=
  match start.base with
  | none => .ok ⟨none, []⟩
  | some base => base.foldlM Place.enter ⟨some t, []⟩

/-- The directory that a part leads to. -/
def step (t : Tree) (start : Start) (here : Place) : Path.Part → Except Fault Place
  | .root => if start.confined then .error .leadsOutside else .ok ⟨some t, []⟩
  | .here => .ok here
  | .up =>
    if start.confined ∧ here.entered.length = (start.base.getD []).length then
      .error .leadsOutside
    else match here.entered with
      | [] => .error .notFound
      | _ :: above => .ok { here with entered := above }
  | .name s => here.enter s

/-- The directory that parts lead to. -/
def walk (t : Tree) (start : Start) (parts : List Path.Part) : Except Fault Place := do
  parts.foldlM (t.step start) (← t.startingPlace start)

/-- A path that can be looked up. -/
def checkPath (start : Start) (path : String) : Except Fault Unit :=
  if '\x00' ∈ path.toList then
    .error (if start.confined then .invalidName else .nulInPath)
  else if maxPathLength < path.utf8ByteSize then .error .nameTooLong
  else if path.isEmpty ∧ !start.confined then .error .notFound
  else .ok ()

/-- Where a path leads: to a directory whose last part is no name, or to a name in a directory. -/
inductive Target where
  | directory (place : Place)
  | child (parent : Place) (inside : Tree) (name : String)

/-- Where a path leads, when `looked` is the part of its text that is looked up as a whole. What
stands at the last name is not looked at. -/
def target (t : Tree) (start : Start) (p : Path) (looked : String) : Except Fault Target := do
  checkPath start looked
  match p.endsInName, p.parts.getLast? with
  | true, some (.name s) =>
    let parent ← t.walk start p.parts.dropLast
    if '\x00' ∈ s.toList then .error .invalidName
    else match parent.inside? with
      | none => .error .notFound
      | some inside =>
        if maxNameLength < s.utf8ByteSize then .error .nameTooLong
        else return .child parent inside s
  | _, _ => return .directory (← t.walk start p.parts)

/-- The part of a path that is looked up as a whole when an entry is made or removed: below an
output root that is the directory of the entry. -/
def lookedUp (start : Start) (p : Path) : String :=
  if start.confined && p.endsInName then (p.parent?.getD p).text else p.text

/-- What a path leads to. -/
def find (t : Tree) (start : Start) (p : Path) : Except Fault Entry := do
  match ← t.target start p p.text with
  | .directory place => return .directory (place.inside?.getD .empty)
  | .child _ inside s =>
    match inside.find? s with
    | none => .error .notFound
    | some (.directory below) => return .directory below
    | some (.file content) =>
      if p.endsInSlash then .error .notADirectory else return .file content

/-- Something stands at the path. -/
def hasEntry (t : Tree) (start : Start) (p : Path) : Bool :=
  match t.find start p with
  | .ok _ => true
  | .error _ => false

/-- A file stands at the path. -/
def isFile (t : Tree) (start : Start) (p : Path) : Bool :=
  match t.find start p with
  | .ok (.file _) => true
  | _ => false

/-- A directory stands at the path. -/
def isDirectory (t : Tree) (start : Start) (p : Path) : Bool :=
  match t.find start p with
  | .ok (.directory _) => true
  | _ => false

/-- The location of the directory at the path. -/
def locateDirectory (t : Tree) (start : Start) (p : Path) : Except Fault Location := do
  checkPath start p.text
  return (← t.walk start p.parts).location

end Tree

end PlatformWiring
