import PlatformWiring.Yaml.Scalar.Basic

/-!
# Quoted scalars

In apostrophes only the apostrophe itself is special; it is written twice. In quotation
marks a backslash begins an escape, and a backslash at the end of a line joins the lines
without a space. The scalar may go over several lines, which have to be indented.
-/

namespace PlatformWiring.Yaml.Quoted

/-- The escapes that stand for one fixed character. -/
def escapes : List (Char × Char) :=
  [('0', '\x00'), ('a', '\x07'), ('b', '\x08'), ('t', '\t'), ('\t', '\t'), ('n', '\n'),
   ('v', '\x0b'), ('f', '\x0c'), ('r', '\r'), ('e', '\x1b'), (' ', ' '), ('"', '"'),
   ('/', '/'), ('\\', '\\'), ('N', '\u0085'), ('_', '\u00a0'), ('L', '\u2028'),
   ('P', '\u2029')]

/-- The number of digits of an escape that gives a code point. -/
def codeLength? : Char → Option Nat
  | 'x' => some 2
  | 'u' => some 4
  | 'U' => some 8
  | _ => none

/-- The value of a digit in base sixteen. -/
def hexValue? (c : Char) : Option Nat :=
  if '0' ≤ c ∧ c ≤ '9' then some (c.toNat - '0'.toNat)
  else if 'a' ≤ c ∧ c ≤ 'f' then some (c.toNat - 'a'.toNat + 10)
  else if 'A' ≤ c ∧ c ≤ 'F' then some (c.toNat - 'A'.toNat + 10)
  else none

/-- The number that digits in base sixteen stand for. -/
def hexNumber? (digits : List Char) : Option Nat :=
  digits.foldlM (fun n c => (hexValue? c).map (16 * n + ·)) 0

/-- The character of a code point. -/
def charOf? (n : Nat) : Option Char :=
  if n.isValidChar then some (Char.ofNat n) else none

/-- The character of the escape at the cursor, and the length of the escape. -/
def readEscape (start c : Cursor) : Except Complaint (Char × Nat) :=
  match escapes.find? (·.1 = c.peekAt 1), codeLength? (c.peekAt 1) with
  | some (_, char), _ => .ok (char, 2)
  | none, none => start.refuse "while parsing a quoted scalar, found unknown escape character"
  | none, some n =>
    let digits := (List.range n).map fun i => c.peekAt (2 + i)
    match hexNumber? digits with
    | none =>
      start.refuse "while parsing a quoted scalar, did not find expected hexadecimal number"
    | some code =>
      match charOf? code with
      | none =>
        start.refuse
          "while parsing a quoted scalar, found invalid Unicode character escape code"
      | some char => .ok (char, 2 + n)

/-- A quoted scalar that is being read. -/
structure Partial where
  cursor : Cursor
  /-- what was read -/
  text : String
  /-- the gap after it -/
  gap : Gap
  /-- the closing mark was read -/
  closed : Bool

/-- Reads a character of a word. -/
def wordStep (mark : Char) (start : Cursor) (s : Partial) : Except Complaint (Option Partial) :=
  let c := s.cursor
  if isGap c.peek || s.gap.hasBreak then .ok none
  else if c.peek = mark then
    if mark = '\'' ∧ c.peekAt 1 = '\'' then
      .ok (some { s with cursor := c.take 2, text := s.text.push '\'' })
    else .ok none
  else if mark = '"' ∧ c.peek = '\\' then
    if isBreak (c.peekAt 1) then
      .ok (some { s with cursor := (c.take 1).skipBreak, gap := .continued 0 })
    else do
      let (char, n) ← readEscape start c
      return some { s with cursor := c.take n, text := s.text.push char }
  else .ok (some { s with cursor := c.take 1, text := s.text.push c.peek })

/-- Reads a blank or a line break. -/
def gapStep (indent : Int) (s : Partial) : Except Complaint (Option Partial) :=
  let c := s.cursor
  if isBreak c.peek then .ok (some { s with cursor := c.skipBreak, gap := s.gap.addBreak })
  else if !isBlank c.peek then .ok none
  else if s.gap.hasBreak && c.peek == '\t' && decide (c.column < indent) then
    c.refuse "tab cannot be used as indentation"
  else .ok (some { s with cursor := c.skip 1, gap := s.gap.addBlank c.peek })

/-- Reads a word and the gap after it, or a word and the closing mark. -/
def step (mark : Char) (indent : Int) (start : Cursor) (s : Partial) :
    Except Complaint (Option Partial) := do
  let c := s.cursor
  if s.closed then return none
  if c.column == 0 && c.atDocumentMarker then
    start.refuse "while scanning a quoted scalar, found unexpected document indicator"
  if c.atEnd then
    start.refuse "while scanning a quoted scalar, found unexpected end of stream"
  if decide (c.column < indent) then start.refuse "invalid indentation in quoted scalar"
  let s ← repeatStep c.size (wordStep mark start) s
  if s.cursor.peek = mark then
    return some { s with cursor := s.cursor.take 1, closed := true }
  let s ← repeatStep c.size (gapStep indent) s
  return some { s with text := s.text ++ s.gap.fold, gap := .nothing }

/-- Something may follow the scalar: the end of the line, a colon after a key, and inside a flow
collection what ends an entry. A key outside of flow collections has one line. -/
def mayEnd (inFlow : Bool) (start c : Cursor) : Bool :=
  isBreakOrEnd c.peek ||
    (inFlow && (c.peek == ',' || c.peek == '\x7d' || c.peek == ']' || c.peek == ':')) ||
    (!inFlow && c.peek == ':' && c.line == start.line)

/-- Reads a scalar between two marks. -/
def read (mark : Char) (indent : Int) (inFlow : Bool) (start : Cursor) :
    Except Complaint (String × Cursor) := do
  let s ← repeatStep start.size (step mark indent start) ⟨start.take 1, "", .nothing, false⟩
  let (c, _) ← s.cursor.skipToLineEnd
  if !mayEnd inFlow start c then
    c.refuse "invalid trailing content after double-quoted scalar"
  return (s.text, c)

end PlatformWiring.Yaml.Quoted
