import PlatformWiring.Yaml.Cursor

/-!
# Scalars

The ways to write a scalar, and what stands between the words of a scalar that goes over
several lines: blanks inside a line are kept, a single line break becomes a space, and of
several line breaks the first is dropped.
-/

namespace PlatformWiring.Yaml

/-- How a scalar is written. -/
inductive Style where
  | plain
  | singleQuoted
  | doubleQuoted
  | literal
  | folded
  deriving DecidableEq, Inhabited, Repr

/-- The scalar stands between quotation marks. -/
def Style.isQuoted : Style → Bool
  | .singleQuoted | .doubleQuoted => true
  | .plain | .literal | .folded => false

/-- What stands between two words of a scalar. -/
inductive Gap where
  /-- blanks inside a line -/
  | blanks (cs : List Char)
  /-- this many line breaks -/
  | breaks (n : Nat)
  /-- an escaped line break and this many others -/
  | continued (n : Nat)
  deriving DecidableEq, Inhabited, Repr

namespace Gap

/-- Nothing. -/
def nothing : Gap := .blanks []

/-- The gap goes over the end of a line. -/
def hasBreak : Gap → Bool
  | .blanks _ => false
  | .breaks _ | .continued _ => true

/-- The gap with a blank after it; blanks after a line break do not count. -/
def addBlank (c : Char) : Gap → Gap
  | .blanks cs => .blanks (cs ++ [c])
  | gap => gap

/-- The gap with a line break after it; blanks before a line break do not count. -/
def addBreak : Gap → Gap
  | .blanks _ => .breaks 1
  | .breaks n => .breaks (n + 1)
  | .continued n => .continued (n + 1)

/-- What the gap stands for. -/
def fold : Gap → String
  | .blanks cs => String.ofList cs
  | .breaks n => if n ≤ 1 then " " else String.ofList (List.replicate (n - 1) '\n')
  | .continued n => String.ofList (List.replicate n '\n')

end Gap

end PlatformWiring.Yaml
