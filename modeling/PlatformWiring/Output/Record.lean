import PlatformWiring.OrderedMap
import PlatformWiring.Output.Path

/-!
# The record of generated sources

An output root carries a file that lists the sources it owns, one line per source with the
digest of its text and its path. Lines that do not have both are skipped on reading. Paths
that differ in writing only are one source: it keeps the first writing and the last digest.
-/

namespace PlatformWiring

/-- A source as the record knows it. -/
structure RecordedSource where
  /-- its path, as first written -/
  path : Path
  /-- the digest of its text -/
  digest : String
  deriving DecidableEq, Inhabited, Repr

/-- The recorded sources by the parts of their paths, in the order of recording. -/
abbrev Record := OrderedMap (List Path.Part) RecordedSource

namespace Record

/-- The path of the record below an output root. -/
def fileName : Path := ⟨".stepwire-sources"⟩

/-- Records the digest of a source. -/
def note (r : Record) (p : Path) (digest : String) : Record :=
  r.alter p.parts fun
    | some old => { old with digest := digest }
    | none => ⟨p, digest⟩

/-- Removes a source. -/
def forget (r : Record) (p : Path) : Record := r.erase p.parts

/-- The digest of a source. -/
def digest? (r : Record) (p : Path) : Option String := (r.find? p.parts).map (·.digest)

/-- The recorded paths, in order. -/
def paths (r : Record) : List Path := r.values.map (·.path)

/-- The digest and the path on a line, if it has both. -/
def readLine (line : List Char) : Option (String × Path) :=
  match Text.cutAt ' ' line with
  | some (digest, path) =>
    if digest = [] ∨ path = [] then none
    else some (String.ofList digest, ⟨String.ofList path⟩)
  | none => none

/-- Reads a record. -/
def read (text : String) : Record :=
  ((Text.lines text.toList).filterMap readLine).foldl (fun r (digest, p) => r.note p digest) ∅

/-- The line of a source. -/
def writeLine (s : RecordedSource) : String := s.digest ++ " " ++ s.path.text ++ "\n"

/-- The text of a record. -/
def write (r : Record) : String := String.join (r.values.map writeLine)

end Record

end PlatformWiring
