import PlatformWiring.Yaml.Scalar.Basic

/-!
# Plain scalars

A plain scalar has no marks around it. It ends at a comment, at a colon that a gap follows,
at a document marker, and where a line is not indented enough; inside a flow collection it
ends at every character with a meaning there.
-/

namespace PlatformWiring.Yaml.Plain

/-- The number of characters up to the next gap or to where the scalar ends. -/
def wordLength (inFlow : Bool) : List Char → Nat
  | [] => 0
  | c :: rest =>
    let next := rest.head?.getD '\x00'
    if isGap c || (inFlow && isFlow c) ||
        (c == ':' && (isGap next || (inFlow && isFlow next))) then 0
    else wordLength inFlow rest + 1

/-- A plain scalar that is being read. -/
structure Partial where
  cursor : Cursor
  /-- the words so far -/
  text : String
  /-- what stands after them -/
  gap : Gap

/-- Reads a blank or a line break. A tab may stand in the indentation of an empty line only. -/
def gapStep (start : Cursor) (indent : Int) (s : Partial) : Except Complaint (Option Partial) :=
  let c := s.cursor
  if isBreak c.peek then .ok (some { s with cursor := c.skipBreak, gap := s.gap.addBreak })
  else if !isBlank c.peek then .ok none
  else if c.fresh && c.peek == '\t' && decide (c.column < indent) then do
    let (c', _) ← c.skipToLineEnd
    if isBreakOrEnd c'.peek then return some { s with cursor := c' }
    start.refuse "while scanning a plain scalar, found a tab"
  else .ok (some { s with cursor := c.skip 1, gap := s.gap.addBlank c.peek })

/-- Reads a word and the gap after it. -/
def step (start : Cursor) (indent : Int) (inFlow : Bool) (s : Partial) :
    Except Complaint (Option Partial) :=
  let c := s.cursor
  if (c.fresh && c.atDocumentMarker) || c.peek == '#' ||
      (s.gap.hasBreak && !inFlow && decide (c.column < indent)) then .ok none
  else if inFlow && c.peek == '-' && isFlow (c.peekAt 1) then
    c.refuse "plain scalar cannot start with '-' followed by ,[]\x7b\x7d"
  else
    let n := wordLength inFlow c.rest
    let s' := if n = 0 then s
      else ⟨c.take n, s.text ++ s.gap.fold ++ String.ofList (c.rest.take n), .nothing⟩
    if n = 0 && !isGap c.peek || s'.cursor.atEnd && n = 0 then .ok none
    else (repeatStep c.size (gapStep start indent) s').map some

/-- Reads a plain scalar whose further lines have at least `indent` blanks in front. -/
def read (indent : Int) (inFlow : Bool) (start : Cursor) : Except Complaint (String × Cursor) := do
  if inFlow && decide (start.column < indent) then
    start.refuse "invalid indentation in flow construct"
  let s ← repeatStep start.size (step start indent inFlow) ⟨start, "", .nothing⟩
  if s.text.isEmpty then start.refuse "unexpected end of plain scalar"
  return (s.text, s.cursor)

end PlatformWiring.Yaml.Plain
