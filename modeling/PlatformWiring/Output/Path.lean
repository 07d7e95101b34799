import PlatformWiring.Text.Split

/-!
# Paths

A path is kept as it was written, and paths are compared by their parts: repeated
slashes, a trailing slash and a `.` inside the path do not matter, while a leading `.` is
a part of its own.
-/

namespace PlatformWiring

/-- A path as it was written. -/
structure Path where
  /-- the text -/
  text : String
  deriving DecidableEq, Inhabited, Repr

namespace Path

/-- A part of a path. -/
inductive Part where
  /-- the leading slash -/
  | root
  /-- a leading `.` -/
  | here
  /-- a `..` -/
  | up
  /-- a name -/
  | name (s : String)
  deriving DecidableEq, Inhabited, Repr

/-- The pieces between the slashes. -/
def slices (p : Path) : List (List Char) := Text.pieces '/' p.text.toList

/-- The path begins with a slash. -/
def isAbsolute (p : Path) : Bool := p.text.toList.head? == some '/'

/-- The part that a piece stands for, if it stands for one. -/
def part? (piece : List Char) : Option Part :=
  if piece = [] ∨ piece = ['.'] then none
  else if piece = ['.', '.'] then some .up
  else some (.name (String.ofList piece))

/-- The part that only the beginning of a path can have, from the first piece and the others. -/
def lead (first : List Char) (others : List (List Char)) : List Part :=
  if first = [] ∧ others ≠ [] then [.root]
  else if first = ['.'] then [.here]
  else []

/-- The parts of a path. -/
def parts (p : Path) : List Part :=
  match p.slices with
  | [] => []
  | first :: others => lead first others ++ (first :: others).filterMap part?

/-- The path ends in a slash, so that it can only stand for a directory. -/
def endsInSlash (p : Path) : Bool := p.text.toList.getLast? == some '/'

/-- The path ends in a name, and slashes at most after it: it does not end in `.` or `..`. -/
def endsInName (p : Path) : Bool :=
  match (p.slices.filter (· ≠ [])).getLast? with
  | none => false
  | some piece => piece ≠ ['.'] && piece ≠ ['.', '.']

/-- The last part, if it is a name. -/
def fileName? (p : Path) : Option String :=
  match p.parts.getLast? with
  | some (.name s) => some s
  | _ => none

/-- Drops the pieces at the end that stand for no part. -/
def trimEnd : List (List Char) → List (List Char)
  | [] => []
  | piece :: rest =>
    match trimEnd rest with
    | [] => if (part? piece).isSome then [piece] else []
    | rest' => piece :: rest'

/-- The path without its last part; nothing for a path without parts and for the bare slash. The
first piece stays as it is, since it may be a leading `.` or stand for the leading slash. -/
def parent? (p : Path) : Option Path :=
  match p.slices with
  | [] => none
  | first :: others =>
    match trimEnd others with
    | [] => if first = [] then none else some ⟨""⟩
    | others =>
      match trimEnd others.dropLast with
      | [] => some ⟨if first = [] then "/" else String.ofList first⟩
      | kept => some ⟨String.ofList (Text.unpieces '/' (first :: kept))⟩

/-- The path inside a directory; an absolute path stays what it is. -/
def join (dir p : Path) : Path :=
  if p.isAbsolute || dir.text.isEmpty then p
  else if dir.text.toList.getLast? = some '/' then ⟨dir.text ++ p.text⟩
  else ⟨dir.text ++ "/" ++ p.text⟩

end Path

end PlatformWiring
