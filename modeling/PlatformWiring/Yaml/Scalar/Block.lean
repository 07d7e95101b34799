import PlatformWiring.Yaml.Scalar.Basic

/-!
# Block scalars

A block scalar begins with a header line and takes the lines below it that are indented. A
literal one keeps its line breaks, a folded one joins lines of text with spaces. The header
may fix the indentation by a digit, and it says by `+` or `-` whether the line breaks at the
end are kept or dropped; without a sign one of them is kept.
-/

namespace PlatformWiring.Yaml.Block

open Text (Position)

/-- What becomes of the line breaks at the end. -/
inductive Ending where
  | strip
  | clip
  | keep
  deriving DecidableEq, Repr

/-- The header of a block scalar. -/
structure Header where
  ending : Ending
  /-- the indentation relative to the parent, if it is fixed -/
  increment : Option Nat

/-- The ending that a sign asks for. -/
def ending? : Char → Option Ending
  | '+' => some .keep
  | '-' => some .strip
  | _ => none

/-- Reads the digit of a header. -/
def readIncrement (start c : Cursor) : Except Complaint (Option Nat × Cursor) :=
  if !c.peek.isDigit then .ok (none, c)
  else if c.peek = '0' then
    start.refuse "while scanning a block scalar, found an indentation indicator equal to 0"
  else .ok (some (c.peek.toNat - '0'.toNat), c.take 1)

/-- Reads a sign and a digit, in either order. -/
def readHeader (start c : Cursor) : Except Complaint (Header × Cursor) :=
  match ending? c.peek with
  | some ending => do
    let (increment, c) ← readIncrement start (c.take 1)
    return (⟨ending, increment⟩, c)
  | none => do
    let (increment, c) ← readIncrement start c
    match increment, ending? c.peek with
    | some n, some ending => return (⟨ending, some n⟩, c.take 1)
    | increment, _ => return (⟨.clip, increment⟩, c)

/-- Empty lines that are being skipped. -/
structure Blanks where
  cursor : Cursor
  /-- the number of line breaks -/
  breaks : Nat
  /-- the most blanks in front of any of the lines -/
  widest : Nat

/-- Skips the indentation of a line, up to `limit` if there is one, and the line if it is empty. -/
def blankStep (limit : Option Nat) (s : Blanks) : Except Complaint (Option Blanks) :=
  let spaces := (s.cursor.rest.takeWhile (· = ' ')).length
  let n := match limit with
    | none => spaces
    | some limit => min spaces (limit - s.cursor.column)
  let c := s.cursor.skip n
  let widest := max s.widest c.column
  if isBreak c.peek then .ok (some ⟨c.skipBreak, s.breaks + 1, widest⟩)
  else if n = 0 then .ok none
  else .ok (some ⟨c, s.breaks, widest⟩)

/-- Skips empty lines and the indentation of the line after them. -/
def skipBlanks (limit : Option Nat) (c : Cursor) : Except Complaint Blanks :=
  repeatStep c.size (blankStep limit) ⟨c, 0, c.column⟩

/-- That many line breaks. -/
def newlines (n : Nat) : String := String.ofList (List.replicate n '\n')

/-- The lines of a block scalar that are being read. -/
structure Partial where
  cursor : Cursor
  /-- the lines so far -/
  text : String
  /-- the last line ended in a line break, which is not in the text yet -/
  pending : Bool
  /-- the number of empty lines after it -/
  empty : Nat
  /-- the last line began with a blank -/
  indented : Bool

/-- What stands between the lines read so far and a line that begins with a blank or does not. -/
def Partial.join (folded indented : Bool) (s : Partial) : String :=
  if folded && s.pending && !s.indented && !indented then
    if s.empty = 0 then " " else newlines s.empty
  else newlines ((if s.pending then 1 else 0) + s.empty)

/-- Reads a line of content and the empty lines after it. -/
def lineStep (folded : Bool) (indent : Nat) (s : Partial) : Except Complaint (Option Partial) :=
  let c := s.cursor
  if c.column != indent || c.atEnd || (indent == 0 && c.atMarker '.') then .ok none
  else
    let line := c.rest.takeWhile fun d => !isBreakOrEnd d
    let indented := isBlank c.peek
    let text := s.text ++ s.join folded indented ++ String.ofList line
    let c' := c.take line.length
    if c'.atEnd then .ok (some ⟨c', text, false, 0, indented⟩)
    else do
      let after ← skipBlanks (some indent) c'.skipBreak
      return some ⟨after.cursor, text, true, after.breaks, indented⟩

/-- The text of a scalar without content, whose header ended in a line break or did not. -/
def emptyText (ending : Ending) (hasBreak : Bool) (breaks : Nat) : String :=
  match ending with
  | .strip => ""
  | .clip => if hasBreak then "\n" else ""
  | .keep => if !hasBreak then "" else if breaks = 0 then "\n" else newlines breaks

/-- The text of a scalar with its ending. -/
def endedText (ending : Ending) (indent : Nat) (s : Partial) : String :=
  let closing :=
    if ending = .strip then ""
    else newlines (if s.pending then 1 else 0) ++
      (if s.cursor.atEnd && decide (max indent 1 ≤ s.cursor.column) then "\n" else "")
  s.text ++ closing ++ (if ending = .keep then newlines s.empty else "")

/-- Reads a block scalar inside a block of indentation `parent`. It begins where its text begins,
behind the indentation of the first line that has any. -/
def read (folded : Bool) (parent : Int) (start : Cursor) :
    Except Complaint (String × Position × Cursor) := do
  let (header, c) ← readHeader start (start.take 1)
  let (c, _) ← c.skipToLineEnd
  if !isBreakOrEnd c.peek then
    start.refuse "while scanning a block scalar, did not find expected comment or line break"
  let c := c.skipBreak
  if c.peek = '\t' then start.refuse "a block scalar content cannot start with a tab"
  let fixed := header.increment.map fun n => (max parent 0).toNat + n
  let blanks ← skipBlanks fixed c
  let indent := fixed.getD (max blanks.widest (parent + 1).toNat)
  let c := blanks.cursor
  if c.atEnd then
    let text := emptyText header.ending (decide (start.line < c.line)) blanks.breaks
    return (text, start.position, c)
  if c.column < indent ∧ parent < c.column then
    c.refuse "wrongly indented line in block scalar"
  let s ← repeatStep c.size (lineStep folded indent)
    ⟨c, "", false, blanks.breaks, false⟩
  return (endedText header.ending indent s, c.position, s.cursor)

end PlatformWiring.Yaml.Block
