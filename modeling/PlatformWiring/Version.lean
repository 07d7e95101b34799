import PlatformWiring.Text.Quoted
import PlatformWiring.Text.Split

/-!
# Format versions

A version is three numbers joined by full stops, then optionally a hyphen with pre-release
identifiers, then optionally a plus sign with build metadata. It is read from left to right,
and the first place where it cannot go on is the complaint.
-/

namespace PlatformWiring

/-- A version. -/
structure Version where
  major : Nat
  minor : Nat
  patch : Nat
  /-- the pre-release identifiers, joined by full stops; empty if there are none -/
  preRelease : String
  /-- the build metadata, joined by full stops; empty if there is none -/
  build : String
  deriving DecidableEq, Inhabited, Repr

namespace Version

/-- A part of a version. -/
inductive Part where
  | major
  | minor
  | patch
  | preRelease
  | build
  deriving DecidableEq, Repr

/-- The part in words. -/
def Part.describe : Part → String
  | .major => "major version number"
  | .minor => "minor version number"
  | .patch => "patch version number"
  | .preRelease => "pre-release identifier"
  | .build => "build metadata"

/-- Why a text is no version. -/
inductive Fault where
  /-- there is no text -/
  | empty
  /-- the text ends where the part has to go on -/
  | endIn (part : Part)
  /-- a character that cannot begin the part -/
  | charIn (part : Part) (c : Char)
  /-- a character that cannot follow the part -/
  | charAfter (part : Part) (c : Char)
  /-- a number with a zero in front -/
  | leadingZero (part : Part)
  /-- a number that is too large -/
  | tooLarge (part : Part)
  /-- two full stops with nothing between them -/
  | emptySegment (part : Part)
  deriving DecidableEq, Repr

/-- The complaint in words. -/
def Fault.message : Fault → String
  | .empty => "empty string, expected a semver version"
  | .endIn part => "unexpected end of input while parsing " ++ part.describe
  | .charIn part c =>
    "unexpected character " ++ Text.quoteChar c ++ " while parsing " ++ part.describe
  | .charAfter part c =>
    "unexpected character " ++ Text.quoteChar c ++ " after " ++ part.describe
  | .leadingZero part => "invalid leading zero in " ++ part.describe
  | .tooLarge part => "value of " ++ part.describe ++ " exceeds u64::MAX"
  | .emptySegment part => "empty identifier segment in " ++ part.describe

/-- The largest number of a version. -/
def maxNumber : Nat := Nat.pow 2 64 - 1

/-! ## Reading -/

/-- The number that decimal digits stand for. -/
def numberOf (digits : List Char) : Nat :=
  digits.foldl (fun n c => 10 * n + (c.toNat - '0'.toNat)) 0

/-- Reads a number; the rest follows it. -/
def readNumber (part : Part) (cs : List Char) : Except Fault (Nat × List Char) :=
  match cs.takeWhile Char.isDigit, cs.dropWhile Char.isDigit with
  | [], [] => .error (.endIn part)
  | [], c :: _ => .error (.charIn part c)
  | d :: ds, rest =>
    if d = '0' ∧ ds ≠ [] then .error (.leadingZero part)
    else if maxNumber < numberOf (d :: ds) then .error (.tooLarge part)
    else .ok (numberOf (d :: ds), rest)

/-- Reads the full stop after a number. -/
def readStop (part : Part) : List Char → Except Fault (List Char)
  | [] => .error (.endIn part)
  | c :: rest => if c = '.' then .ok rest else .error (.charAfter part c)

/-- The character may stand in an identifier. -/
def isIdentifierChar (c : Char) : Bool := c.isAlphanum || c == '-'

/-- What is wrong with an identifier. Numbers among the pre-release identifiers have no zero in
front. -/
def identifierFault? (part : Part) (identifier : List Char) : Option Fault :=
  if identifier = [] then some (.emptySegment part)
  else if part = .preRelease ∧ identifier.all Char.isDigit ∧ 1 < identifier.length ∧
      identifier.head? = some '0' then some (.leadingZero part)
  else none

/-- Reads identifiers joined by full stops; the rest follows them. -/
def readIdentifiers (part : Part) (cs : List Char) : Except Fault (String × List Char) :=
  let joined := cs.takeWhile fun c => isIdentifierChar c || c == '.'
  match (Text.pieces '.' joined).findSome? (identifierFault? part) with
  | some fault => .error fault
  | none => .ok (String.ofList joined, cs.drop joined.length)

/-- Reads identifiers if the text goes on with `mark`. -/
def readMarked (mark : Char) (part previous : Part) :
    List Char → Except Fault (String × Part × List Char)
  | [] => .ok ("", previous, [])
  | c :: cs =>
    if c = mark then do
      let (text, rest) ← readIdentifiers part cs
      return (text, part, rest)
    else .ok ("", previous, c :: cs)

/-- Reads a version. -/
def read (text : String) : Except Fault Version := do
  if text.isEmpty then throw .empty
  let (major, rest) ← readNumber .major text.toList
  let (minor, rest) ← readNumber .minor (← readStop .major rest)
  let (patch, rest) ← readNumber .patch (← readStop .minor rest)
  let (preRelease, last, rest) ← readMarked '-' .preRelease .patch rest
  let (build, last, rest) ← readMarked '+' .build last rest
  match rest with
  | [] => return ⟨major, minor, patch, preRelease, build⟩
  | c :: _ => throw (.charAfter last c)

/-! ## Writing -/

/-- Identifiers behind their mark; nothing if there are none. -/
def writeMarked (mark identifiers : String) : String :=
  if identifiers.isEmpty then "" else mark ++ identifiers

/-- The text of a version. -/
def write (v : Version) : String :=
  toString v.major ++ "." ++ toString v.minor ++ "." ++ toString v.patch ++
    writeMarked "-" v.preRelease ++ writeMarked "+" v.build

end Version

end PlatformWiring
