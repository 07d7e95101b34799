import PlatformWiring.Yaml.Complaint

/-!
# A cursor in a YAML text

The rest of the text, where it begins, and whether only blanks stand before it on its line.
A NUL character ends a text, so the cursor shows one where the text has ended.

Reading moves a cursor on step by step, and every step reads a character at least. So a step
can be repeated only as often as the text has characters.
-/

namespace PlatformWiring.Yaml

open Text (Position)

/-! ## Characters -/

/-- A line break. -/
def isBreak (c : Char) : Bool := c == '\n' || c == '\r'

/-- A blank inside a line. -/
def isBlank (c : Char) : Bool := c == ' ' || c == '\t'

/-- The end of the text. -/
def isEnd (c : Char) : Bool := c == '\x00'

/-- A line break or the end of the text. -/
def isBreakOrEnd (c : Char) : Bool := isBreak c || isEnd c

/-- What ends a word: a blank, a line break or the end of the text. -/
def isGap (c : Char) : Bool := isBlank c || isBreakOrEnd c

/-- A character with a meaning inside flow collections. -/
def isFlow (c : Char) : Bool :=
  c == ',' || c == '[' || c == ']' || c == '\x7b' || c == '\x7d'

/-- A character of handles and directive names. -/
def isWord (c : Char) : Bool := c.isAlphanum || c == '_' || c == '-'

/-- A character of a URI. -/
def isUri (c : Char) : Bool :=
  c.isAlphanum || c == '-' || "#;/?:@&=+$,_.!~*'()[]%".toList.contains c

/-- A character of a tag. -/
def isTag (c : Char) : Bool := isUri c && !isFlow c && c != '!'

/-- A character of an anchor. -/
def isAnchor (c : Char) : Bool := !isGap c && !isFlow c && c != '\ufeff'

/-! ## The cursor -/

/-- A place in a text, with the text from there on. -/
structure Cursor where
  /-- the rest of the text -/
  rest : List Char
  /-- the line, counted from one -/
  line : Nat
  /-- the number of characters before the cursor in its line -/
  column : Nat
  /-- the number of characters before the cursor in the text -/
  index : Nat
  /-- only blanks stand before the cursor in its line -/
  fresh : Bool
  /-- the number of characters of the whole text -/
  size : Nat
  deriving Inhabited, Repr

namespace Cursor

/-- The beginning of a text. -/
def ofText (cs : List Char) : Cursor :=
  let rest := cs.takeWhile fun c => !isEnd c
  ⟨rest, 1, 0, 0, true, rest.length⟩

/-- The next character. -/
def peek (c : Cursor) : Char := c.rest.head?.getD '\x00'

/-- The character after `n` others. -/
def peekAt (c : Cursor) (n : Nat) : Char := (c.rest[n]?).getD '\x00'

/-- The text has ended. -/
def atEnd (c : Cursor) : Bool := c.rest.isEmpty

/-- The place of the next character. -/
def position (c : Cursor) : Position := ⟨c.line, c.column + 1⟩

/-- The cursor after `n` more characters of the line. -/
def skip (n : Nat) (c : Cursor) : Cursor :=
  { c with rest := c.rest.drop n, column := c.column + n, index := c.index + n }

/-- The cursor after `n` characters of content. -/
def take (n : Nat) (c : Cursor) : Cursor := { c.skip n with fresh := false }

/-- The cursor after characters of the line as long as `p` holds. -/
def skipWhile (p : Char → Bool) (c : Cursor) : Cursor := c.skip (c.rest.takeWhile p).length

/-- The cursor after a line break, which is CR LF, CR or LF. -/
def skipBreak (c : Cursor) : Cursor :=
  let n := if c.peek = '\r' ∧ c.peekAt 1 = '\n' then 2 else if isBreak c.peek then 1 else 0
  if n = 0 then c
  else
    { c with
      rest := c.rest.drop n, line := c.line + 1, column := 0, index := c.index + n,
      fresh := true }

/-- The end of the text lies on a line of its own. -/
def closeLine (c : Cursor) : Cursor :=
  if c.column = 0 then c else { c with line := c.line + 1, column := 0 }

/-- Three equal characters `m` stand here as a word. -/
def atMarker (m : Char) (c : Cursor) : Bool :=
  c.peek == m && c.peekAt 1 == m && c.peekAt 2 == m && isGap (c.peekAt 3)

/-- A document begins or ends here. -/
def atDocumentMarker (c : Cursor) : Bool := c.atMarker '-' || c.atMarker '.'

/-- The complaint about this place. -/
def refuse {α : Type} (c : Cursor) (reason : String) : Except Complaint α :=
  .error (.atPlace c.position reason)

/-- Skips blanks and then a comment. A comment needs a blank in front of it. The second result
is the skipped blanks. -/
def skipToLineEnd (c : Cursor) : Except Complaint (Cursor × List Char) :=
  let blanks := c.rest.takeWhile isBlank
  let c' := c.skip blanks.length
  if c'.peek != '#' then .ok (c', blanks)
  else if blanks.isEmpty then
    c'.refuse "comments must be separated from other tokens by whitespace"
  else .ok (c'.skipWhile fun d => !isBreakOrEnd d, blanks)

end Cursor

/-! ## Repetition -/

/-- Repeats a step until it does not apply, or as often as the first argument says. -/
def repeatStep {σ : Type} :
    Nat → (step : σ → Except Complaint (Option σ)) → σ → Except Complaint σ
  | 0, _, s => .ok s
  | n + 1, step, s =>
    match step s with
    | .error e => .error e
    | .ok none => .ok s
    | .ok (some s') => repeatStep n step s'

end PlatformWiring.Yaml
