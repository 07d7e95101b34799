import PlatformWiring.Text.Split

/-!
# Positions in a text

A position is a line and a column, both counted from one, the column in characters. It
marks a place between two characters of the text: one behind the end of a line marks the
end of that line, and one behind the last line marks the end of the text.

Spans count bytes of the UTF-8 form, as editors and terminals do.
-/

namespace PlatformWiring.Text

/-- A line and a column, counted from one. -/
structure Position where
  line : Nat
  column : Nat
  deriving DecidableEq, Inhabited, Repr

/-- The bytes from `offset` on, `length` of them. -/
structure Span where
  offset : Nat
  length : Nat
  deriving DecidableEq, Inhabited, Repr

/-- The number of bytes of a text. -/
def byteCount (cs : List Char) : Nat := cs.foldr (fun c n => c.utf8Size + n) 0

/-- The text of the segments before a place, given as the number of segments before it and the
number of characters before it in its line. -/
def beforePlace : List (List Char) → Nat → Nat → List Char
  | [], _, _ => []
  | segment :: _, 0, column => (lineContent segment).take column
  | segment :: rest, line + 1, column => segment ++ beforePlace rest line column

namespace Position

/-- The position that a line and a column give. Zero for both says that there is none. -/
def ofCounts? (line column : Nat) : Option Position :=
  if line = 0 ∧ column = 0 then none else some ⟨line, column⟩

/-- The text before a position. A line or column of zero counts as one. -/
def before (p : Position) (cs : List Char) : List Char :=
  beforePlace (segments cs) (p.line - 1) (p.column - 1)

/-- The number of bytes before a position. -/
def byteOffset (p : Position) (cs : List Char) : Nat := byteCount (p.before cs)

/-- The character belongs to a line break. -/
def isBreak (c : Char) : Bool := c == '\n' || c == '\r'

/-- The byte that a position points at: the one after it, or at the end of a line the one before
it. A position on an empty line points at nothing. -/
def span (p : Position) (cs : List Char) : Span :=
  let before := p.before cs
  let offset := byteCount before
  let pointsAhead := ((cs.drop before.length).head?.map fun c => !isBreak c).getD false
  let pointsBack := (before.getLast?.map fun c => !isBreak c).getD false
  if pointsAhead then ⟨offset, 1⟩
  else if pointsBack then ⟨offset - 1, 1⟩
  else ⟨offset, 0⟩

end Position

end PlatformWiring.Text
