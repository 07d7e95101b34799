import PlatformWiring.Yaml.Scalar.Block
import PlatformWiring.Yaml.Scalar.Plain
import PlatformWiring.Yaml.Scalar.Quoted
import PlatformWiring.Yaml.Token

/-!
# From text to tokens

The lexer keeps the indentations of the open blocks and, for each open flow collection, the
place where a key may have begun. Whether it did shows at the colon, and then the token that
marks the key is inserted at that place. Tokens from such an open place on cannot be told
yet, so a fault that shows before the colon takes their place.
-/

namespace PlatformWiring.Yaml

open Text (Position)

/-- A place where a key may have begun. -/
structure KeyStart where
  /-- the place in the text -/
  cursor : Cursor
  /-- the number of tokens before it -/
  tokenCount : Nat
  /-- nothing but a key can stand there -/
  required : Bool

/-- The indentation outside of an open block. -/
structure OuterIndent where
  /-- the indentation -/
  column : Int
  /-- the block has a token at its end -/
  isBlock : Bool

/-- What the lexer knows. -/
structure Lexer where
  cursor : Cursor
  /-- the tokens so far, the last one first -/
  tokens : List Token
  /-- the number of tokens so far -/
  count : Nat
  /-- a key may begin here -/
  keyAllowed : Bool
  /-- the open key of each open flow collection, innermost first, and last that of the block -/
  keys : List (Option KeyStart)
  /-- the indentation of the innermost block -/
  indent : Int
  /-- the indentations around it, innermost first -/
  outer : List OuterIndent
  /-- the number of open flow collections -/
  depth : Nat
  /-- where a colon may follow without a blank after it -/
  adjacentAt : Nat
  /-- for each open flow sequence, innermost first, whether an entry of it is a pair -/
  pairs : List Bool
  /-- a flow mapping was begun by its brace or by a question mark -/
  mappingBegun : Bool
  /-- the text has ended -/
  ended : Bool

namespace Lexer

/-- The lexer at the beginning of a text. -/
def ofText (cs : List Char) : Lexer :=
  ⟨.ofText cs, [], 0, true, [none], -1, [], 0, 0, [], false, false⟩

/-- A step of the lexer. -/
abbrev Step := Lexer → Except Complaint Lexer

/-- The complaint about the place of the lexer. -/
def refuse {α : Type} (l : Lexer) (reason : String) : Except Complaint α := l.cursor.refuse reason

/-- The lexer is inside a flow collection. -/
def inFlow (l : Lexer) : Bool := 0 < l.depth

/-- Adds a token. -/
def push (l : Lexer) (lexeme : Lexeme) (p : Position) : Lexer :=
  { l with tokens := ⟨lexeme, p⟩ :: l.tokens, count := l.count + 1 }

/-- Inserts a token before those that came after the first `n`. -/
def insert (l : Lexer) (n : Nat) (lexeme : Lexeme) (p : Position) : Lexer :=
  let (later, first) := l.tokens.splitAt (l.count - n)
  { l with tokens := later ++ ⟨lexeme, p⟩ :: first, count := l.count + 1 }

/-! ## Indentation -/

/-- Closes the blocks that are indented more than `column`. -/
def closeBlocks (column : Int) (l : Lexer) : Lexer :=
  let rec go : List OuterIndent → Lexer → Lexer
    | [], l => l
    | o :: os, l =>
      if column < l.indent then
        let l := { l with indent := o.column, outer := os }
        go os (if o.isBlock then l.push .blockEnd l.cursor.position else l)
      else l
  if l.inFlow then l else go l.outer l

/-- Forgets the innermost indentations that belong to no block. -/
def dropLoose (l : Lexer) : Lexer :=
  let rec go : Int → List OuterIndent → Int × List OuterIndent
    | indent, [] => (indent, [])
    | indent, o :: os => if o.isBlock then (indent, o :: os) else go o.column os
  let (indent, outer) := go l.indent l.outer
  { l with indent := indent, outer := outer }

/-- What stands in a block after a colon, or in a flow collection, has to be indented by one more
than the block. -/
def indentLoosely (l : Lexer) : Lexer :=
  match l.outer with
  | o :: _ =>
    if !l.inFlow && o.isBlock then
      { l with outer := ⟨l.indent, false⟩ :: l.outer, indent := l.indent + 1 }
    else l
  | [] => l

/-- Opens a block at a column, unless one is open there. Its token goes to the end, or before the
tokens that came after the first `n`. -/
def openBlock (lexeme : Lexeme) (column : Nat) (n? : Option Nat) (p : Position) (l : Lexer) :
    Lexer :=
  if l.inFlow then l
  else
    let l := match l.outer with
      | o :: os =>
        if decide (l.indent ≤ (column : Int)) && !o.isBlock then
          { l with indent := o.column, outer := os }
        else l
      | [] => l
    if l.indent < (column : Int) then
      let l := { l with outer := ⟨l.indent, true⟩ :: l.outer, indent := (column : Int) }
      match n? with
      | some n => l.insert n lexeme p
      | none => l.push lexeme p
    else l

/-! ## Keys -/

/-- The open key of the innermost collection. -/
def openKey? (l : Lexer) : Option KeyStart := l.keys.head?.join

/-- Replaces the open key of the innermost collection. -/
def setKey (key? : Option KeyStart) (l : Lexer) : Lexer := { l with keys := key? :: l.keys.tail }

/-- A key may have begun here, if one is allowed. Where a block mapping goes on, only a key can
stand. -/
def markKey (l : Lexer) : Lexer :=
  if !l.keyAllowed then l
  else
    let required := !l.inFlow && decide (l.indent = l.cursor.column) &&
      ((l.outer.head?.map (·.isBlock)).getD false)
    l.setKey (some ⟨l.cursor, l.count, required⟩)

/-- No key began in the innermost collection. -/
def dropKey (l : Lexer) : Except Complaint Lexer :=
  match l.openKey? with
  | some key => if key.required then l.refuse "simple key expected" else .ok (l.setKey none)
  | none => .ok (l.setKey none)

/-- The longest key, in characters. -/
def maxKeyLength : Nat := 1024

/-- The key cannot go on up to the place of the lexer. Inside a flow collection it always can. -/
def isStale (l : Lexer) (key : KeyStart) : Bool :=
  !l.inFlow && (decide (key.cursor.line < l.cursor.line) ||
    decide (key.cursor.index + maxKeyLength < l.cursor.index))

/-- Forgets the keys that cannot go on. -/
def dropStaleKeys (l : Lexer) : Except Complaint Lexer :=
  if l.keys.any fun key? => (key?.map fun key => l.isStale key && key.required).getD false then
    l.refuse "simple key expect ':'"
  else .ok { l with keys := l.keys.map fun key? => key?.filter fun key => !l.isStale key }

/-- The number of tokens before the first open key; all later ones cannot be told yet. -/
def settled (l : Lexer) : Nat :=
  l.keys.foldl (fun n key? => (key?.map fun key => min n key.tokenCount).getD n) l.count

/-! ## Blanks -/

/-- Skips a blank, a line break or a comment. A tab may not stand in the indentation. -/
def blankStep (l : Lexer) : Except Complaint (Option Lexer) :=
  let c := l.cursor
  if c.peek == '\t' && !l.outer.isEmpty && c.fresh && decide (c.column < l.indent) then do
    let (c', _) ← c.skipToLineEnd
    if isBreakOrEnd c'.peek then return some { l with cursor := c' }
    c'.refuse "tabs disallowed within this context (block indentation)"
  else if isBlank c.peek then .ok (some { l with cursor := c.skip 1 })
  else if isBreak c.peek then
    .ok (some { l with cursor := c.skipBreak, keyAllowed := l.keyAllowed || !l.inFlow })
  else if c.peek == '#' then
    .ok (some { l with cursor := c.skipWhile fun d => !isBreakOrEnd d })
  else .ok none

/-- Skips what stands before the next token. -/
def skipBlanks : Step := fun l => repeatStep l.cursor.size blankStep l

/-- Skips what stands after a question mark: a gap without tabs. -/
def gapStep (l : Lexer) : Except Complaint (Option Lexer) :=
  let c := l.cursor
  if c.peek == '\t' then .ok none else l.blankStep

/-! ## Flow collections -/

/-- The most flow collections that may be open. -/
def maxDepth : Nat := 255

/-- Ends the pair that stands as an entry of a flow sequence. -/
def endPair (l : Lexer) : Lexer :=
  match l.pairs with
  | true :: rest =>
    { l.push .flowMappingEnd l.cursor.position with pairs := false :: rest, mappingBegun := false }
  | _ => l

/-- Reads the character that opens a flow collection. -/
def openFlow (lexeme : Lexeme) : Step := fun l => do
  let p := l.cursor.position
  let l := l.markKey.indentLoosely
  if maxDepth ≤ l.depth then l.refuse "recursion limit exceeded"
  let l := { l with keys := none :: l.keys, depth := l.depth + 1, keyAllowed := true }
  let l := if lexeme = .flowMappingStart then { l with mappingBegun := true }
    else { l with pairs := false :: l.pairs }
  let (c, _) ← (l.cursor.take 1).skipToLineEnd
  return { l.push lexeme p with cursor := c }

/-- Reads the character that closes a flow collection. -/
def closeFlow (lexeme : Lexeme) : Step := fun l => do
  let p := l.cursor.position
  let l ← l.dropKey
  let l := if l.inFlow then { l with keys := l.keys.tail, depth := l.depth - 1 } else l
  let l := { l with keyAllowed := false }
  let l := if lexeme = .flowSequenceEnd then
      let l := l.endPair
      { l with pairs := l.pairs.tail }
    else l
  let (c, _) ← (l.cursor.take 1).skipToLineEnd
  let l := if l.inFlow then { l with adjacentAt := c.index } else l
  return { l.push lexeme p with cursor := c }

/-- Reads the comma of a flow collection. -/
def readFlowEntry : Step := fun l => do
  let p := l.cursor.position
  let l ← l.dropKey
  let l := { l.endPair with keyAllowed := true }
  let (c, _) ← (l.cursor.take 1).skipToLineEnd
  return { l.push .flowEntry p with cursor := c }

/-! ## Indicators -/

/-- The last token is an anchor or a tag at the beginning of a line. -/
def afterLooseProperty? (l : Lexer) : Option Position :=
  match l.tokens.head? with
  | some ⟨.anchor _, p⟩ => if p.column = 1 then some p else none
  | some ⟨.tag _ _, p⟩ => if p.column = 1 then some p else none
  | _ => none

/-- Reads the dash of a block sequence. -/
def readBlockEntry : Step := fun l => do
  if l.inFlow then l.refuse "\"-\" is only valid inside a block"
  if !l.keyAllowed then l.refuse "block sequence entries are not allowed in this context"
  match l.afterLooseProperty? with
  | some p =>
    if l.cursor.column = 0 ∧ -1 < l.indent then
      throw (.atPlace p "invalid indentation for anchor")
  | none => pure ()
  let l := l.openBlock .blockSequenceStart l.cursor.column none l.cursor.position
  let (c, blanks) ← (l.cursor.take 1).skipToLineEnd
  if '\t' ∈ blanks ∧ c.peek = '-' ∧ isGap (c.peekAt 1) then
    c.refuse "'-' must be followed by a valid YAML whitespace"
  let l := { l with cursor := c }
  let l := if isBreak c.peek || isFlow c.peek then l.indentLoosely else l
  let l ← l.dropKey
  return { l.push .blockEntry c.position with keyAllowed := true }

/-- Reads the question mark of a key. -/
def readKey : Step := fun l => do
  let c := l.cursor
  if !l.inFlow && !l.keyAllowed then l.refuse "mapping keys are not allowed in this context"
  let l := if l.inFlow then { l with mappingBegun := true }
    else l.openBlock .blockMappingStart c.column none c.position
  let l ← l.dropKey
  let l := { l with keyAllowed := !l.inFlow, cursor := c.take 1 }
  let l' ← repeatStep c.size gapStep l
  if l'.cursor.index = l.cursor.index then
    l'.refuse "expected whitespace"
  if l'.cursor.peek = '\t' then l'.refuse "tabs disallowed in this context"
  return l'.push .key c.position

/-- A colon makes an entry of a flow sequence a pair. -/
def beginsPair (l : Lexer) : Bool := !l.pairs.isEmpty && !l.mappingBegun

/-- The key that a colon ends began at an open place. -/
def settleKey (key : KeyStart) (colon : Position) (l : Lexer) : Except Complaint Lexer := do
  let p := key.cursor.position
  let pair := l.beginsPair
  let l := l.insert key.tokenCount .key p
  if pair ∧ p.line < colon.line then
    throw (.atPlace colon "illegal placement of ':' indicator")
  let l := if pair then l.insert key.tokenCount .flowMappingStart p else l
  let l := l.openBlock .blockMappingStart key.cursor.column (some key.tokenCount) p
  return { l.indentLoosely.setKey none with keyAllowed := false }

/-- A colon ends a key that was begun by a question mark, or none. -/
def settleNoKey (colon : Cursor) (l : Lexer) : Except Complaint Lexer := do
  let l := if l.beginsPair then l.push .flowMappingStart colon.position else l
  if l.inFlow then return { l.indentLoosely with keyAllowed := false }
  if !l.keyAllowed then
    throw (.atPlace colon.position "mapping values are not allowed in this context")
  let l := l.openBlock .blockMappingStart colon.column none colon.position
  return { l.indentLoosely with keyAllowed := true }

/-- Reads the colon after a key. -/
def readValue : Step := fun l => do
  let colon := l.cursor
  let key? := l.openKey?
  let l := { l with cursor := colon.take 1 }
  let l ←
    if l.cursor.peek = '\t' then do
      let (c, blanks) ← l.cursor.skipToLineEnd
      if ' ' ∉ blanks ∧ (c.peek = '-' ∨ isWord c.peek) then
        c.refuse "':' must be followed by a valid YAML whitespace"
      pure { l with cursor := c }
    else pure l
  let pair := l.beginsPair
  let l ← match key? with
    | some key => l.settleKey key colon.position
    | none => l.settleNoKey colon
  let l := if pair then { l with pairs := true :: l.pairs.tail } else l
  return l.push .value colon.position

/-- Reads a colon that no gap follows. -/
def readTightValue : Step := fun l =>
  let next := l.cursor.peekAt 1
  if l.cursor.index ≠ l.adjacentAt ∧ (next = '[' ∨ next = '\x7b') then
    l.refuse "':' may not precede any of `[\x7b` in flow mapping"
  else l.readValue

/-! ## Properties of nodes -/

/-- Reads an anchor or an alias behind its mark. -/
def readAnchor (lexeme : String → Lexeme) : Step := fun l => do
  let start := l.cursor
  let l := { l.markKey with keyAllowed := false }
  let name := (start.rest.drop 1).takeWhile isAnchor
  if name.isEmpty then
    start.refuse
      "while scanning an anchor or alias, did not find expected alphabetic or numeric character"
  return { l.push (lexeme (String.ofList name)) start.position with
    cursor := start.take (name.length + 1) }

/-- The byte that the escape at the beginning of a text stands for. -/
def readTagByte (start : Cursor) : List Char → Except Complaint Nat
  | '%' :: a :: b :: _ =>
    match Quoted.hexNumber? [a, b] with
    | some byte => .ok byte
    | none => start.refuse "while parsing a tag, found an invalid escape sequence"
  | _ => start.refuse "while parsing a tag, found an invalid escape sequence"

/-- The code point whose bytes so far are `code`, with `n` more of them to come. -/
def readTagBytes (start : Cursor) : (n : Nat) → (code : Nat) → List Char → Except Complaint Nat
  | 0, code, _ => .ok code
  | n + 1, code, cs => do
    let byte ← readTagByte start cs
    if byte < 0x80 ∨ 0xC0 ≤ byte then
      start.refuse "while parsing a tag, found an incorrect trailing UTF-8 byte"
    readTagBytes start n (code * 256 + byte) (cs.drop 3)

/-- The number of bytes of a character that begins with the byte. -/
def byteLength? (byte : Nat) : Option Nat :=
  if byte < 0x80 then some 1
  else if 0xC0 ≤ byte ∧ byte < 0xE0 then some 2
  else if 0xE0 ≤ byte ∧ byte < 0xF0 then some 3
  else if 0xF0 ≤ byte ∧ byte < 0xF8 then some 4
  else none

/-- Reads an escaped character of a tag; each of its bytes takes three characters. -/
def readTagEscape (start c : Cursor) : Except Complaint (Char × Nat) := do
  let first ← readTagByte start c.rest
  match byteLength? first with
  | none => start.refuse "while parsing a tag, found an incorrect leading UTF-8 byte"
  | some n =>
    let code ← readTagBytes start (n - 1) first (c.rest.drop 3)
    match Quoted.charOf? code with
    | some char => return (char, 3 * n)
    | none => start.refuse "while parsing a tag, found an invalid UTF-8 codepoint"

/-- Reads a character of a tag, of the class `p`. -/
def tagStep (p : Char → Bool) (start : Cursor) (s : Cursor × String) :
    Except Complaint (Option (Cursor × String)) :=
  if !p s.1.peek || s.1.atEnd then .ok none
  else if s.1.peek = '%' then do
    let (char, n) ← readTagEscape start s.1
    return some (s.1.take n, s.2.push char)
  else .ok (some (s.1.take 1, s.2.push s.1.peek))

/-- Reads the characters of the class `p`, with escapes. -/
def readTagText (p : Char → Bool) (start c : Cursor) : Except Complaint (Cursor × String) :=
  repeatStep c.size (tagStep p start) (c, "")

/-- The handle at the cursor: an exclamation mark, word characters, and perhaps another mark. -/
def handleAt (c : Cursor) : List Char :=
  let name := (c.rest.drop 1).takeWhile isWord
  if c.peekAt (name.length + 1) = '!' then '!' :: name ++ ['!'] else '!' :: name

/-- The handle ends in a second exclamation mark. -/
def isClosedHandle (handle : List Char) : Bool :=
  decide (2 ≤ handle.length) && handle.getLast? == some '!'

/-- Reads the parts of a tag. -/
def readTagParts (start : Cursor) : Except Complaint (String × String × Cursor) := do
  if start.peekAt 1 = '<' then
    let (c, text) ← readTagText isUri start (start.take 2)
    if c.peek ≠ '>' then
      start.refuse "while scanning a verbatim tag, did not find the expected '>'"
    return ("", text, c.take 1)
  let handle := handleAt start
  let (c, text) ← readTagText isTag start (start.take handle.length)
  if isClosedHandle handle then
    if text.isEmpty then
      start.refuse "while parsing a tag, did not find expected tag URI"
    return (String.ofList handle, text, c)
  let suffix := String.ofList (handle.drop 1) ++ text
  if suffix.isEmpty then return ("", "!", c) else return ("!", suffix, c)

/-- Reads a tag. -/
def readTag : Step := fun l => do
  let start := l.cursor
  let l := { l.markKey with keyAllowed := false }
  let (handle, suffix, c) ← readTagParts start
  if !isGap c.peek && !(l.inFlow && isFlow c.peek) then
    start.refuse "while scanning a tag, did not find expected whitespace or line break"
  return { l.push (.tag handle suffix) start.position with cursor := c }

/-! ## Scalars -/

/-- Reads a quoted scalar. What follows it may be a key's colon without a blank. -/
def readQuoted (mark : Char) (style : Style) : Step := fun l => do
  let start := l.cursor
  let l := { l.markKey with keyAllowed := false }
  let (text, c) ← Quoted.read mark l.indent l.inFlow start
  let l ← { l with cursor := c }.skipBlanks
  return { l.push (.scalar style text) start.position with adjacentAt := l.cursor.index }

/-- Reads a plain scalar. -/
def readPlain : Step := fun l => do
  let start := l.cursor
  let l := { l.markKey with keyAllowed := false }.dropLoose
  let (text, c) ← Plain.read (l.indent + 1) l.inFlow start
  return { l.push (.scalar .plain text) start.position with cursor := c, keyAllowed := c.fresh }

/-- Reads a block scalar. -/
def readBlock (style : Style) : Step := fun l => do
  let start := l.cursor
  let l := { l.markKey with keyAllowed := true }.dropLoose
  let (text, p, c) ← Block.read (style = .folded) l.indent start
  return { l.push (.scalar style text) p with cursor := c }

/-! ## Documents -/

/-- Closes all blocks, for a document begins or ends here. -/
def closeDocument (l : Lexer) : Except Complaint Lexer := do
  return { ← (l.closeBlocks (-1)).dropKey with keyAllowed := false }

/-- Reads the marker of a document. -/
def readMarker (lexeme : Lexeme) : Step := fun l => do
  let l ← l.closeDocument
  return { l.push lexeme l.cursor.position with cursor := l.cursor.take 3 }

/-- Reads the marker at the end of a document; only a comment may follow it. -/
def readDocumentEnd : Step := fun l => do
  let l ← l.readMarker .documentEnd
  let (c, _) ← l.cursor.skipToLineEnd
  if !isBreakOrEnd c.peek then c.refuse "invalid content after document end marker"
  return { l with cursor := c }

/-- The longest number of a version, in digits. -/
def maxVersionDigits : Nat := 9

/-- Reads a number of a `%YAML` directive. -/
def readVersionNumber (start c : Cursor) : Except Complaint Cursor :=
  let n := (c.rest.takeWhile Char.isDigit).length
  if maxVersionDigits < n then
    start.refuse "while scanning a YAML directive, found extremely long version number"
  else if n = 0 then
    start.refuse "while scanning a YAML directive, did not find expected version number"
  else .ok (c.take n)

/-- Reads the version of a `%YAML` directive. -/
def readVersion (start c : Cursor) : Except Complaint (Lexeme × Cursor) := do
  let c ← readVersionNumber start (c.skipWhile isBlank)
  if c.peek ≠ '.' then
    start.refuse "while scanning a YAML directive, did not find expected digit or '.' character"
  return (.version, ← readVersionNumber start (c.take 1))

/-- Reads the handle and the expansion of a `%TAG` directive. -/
def readTagDirective (start c : Cursor) : Except Complaint (Lexeme × Cursor) := do
  let c := c.skipWhile isBlank
  if c.peek ≠ '!' then start.refuse "while scanning a tag, did not find expected '!'"
  let handle := handleAt c
  if handle ≠ ['!'] ∧ handle.getLast? ≠ some '!' then
    start.refuse "while parsing a tag directive, did not find expected '!'"
  let c := (c.take handle.length).skipWhile isBlank
  if c.peek ≠ '!' ∧ !isTag c.peek then
    start.refuse "invalid global tag character"
  let mark := if c.peek = '!' then "!" else ""
  let (c, text) ← readTagText isUri start (c.take mark.length)
  if !isGap c.peek then
    start.refuse "while scanning TAG, did not find expected whitespace or line break"
  return (.tagDirective (String.ofList handle) (mark ++ text), c)

/-- Reads the name of a directive and what it declares. An unknown directive declares nothing. -/
def readDeclaration (start : Cursor) : Except Complaint (Lexeme × Cursor) := do
  let name := (start.rest.drop 1).takeWhile isWord
  let c := start.take (name.length + 1)
  if name.isEmpty then
    (start.take 1).refuse "while scanning a directive, could not find expected directive name"
  if !isGap c.peek then
    (start.take 1).refuse
      "while scanning a directive, found unexpected non-alphabetical character"
  if name = "YAML".toList then readVersion start c
  else if name = "TAG".toList then readTagDirective start c
  else return (.tagDirective "" "", c.skipWhile fun d => !isBreakOrEnd d)

/-- Reads a directive. -/
def readDirective : Step := fun l => do
  let l ← l.closeDocument
  let start := l.cursor
  let (lexeme, c) ← readDeclaration start
  let (c, _) ← c.skipToLineEnd
  if !isBreakOrEnd c.peek then
    start.refuse "while scanning a directive, did not find expected comment or line break"
  return { l.push lexeme start.position with cursor := c.skipBreak }

/-- Ends the text: all blocks are closed, and an open key was none. -/
def readEnd : Step := fun l => do
  let l := { l with cursor := l.cursor.closeLine }
  if l.keys.any fun key? => (key?.map (·.required)).getD false then
    l.refuse "simple key expected"
  let l := { l with keys := l.keys.map fun _ => none }.closeBlocks (-1)
  return { l.push .streamEnd l.cursor.position with keyAllowed := false, ended := true }

/-! ## The next token -/

/-- Reads the token that begins at the cursor. -/
def readToken : Step := fun l =>
  let gap := isGap (l.cursor.peekAt 1)
  match l.cursor.peek with
  | '[' => l.openFlow .flowSequenceStart
  | '\x7b' => l.openFlow .flowMappingStart
  | ']' => l.closeFlow .flowSequenceEnd
  | '\x7d' => l.closeFlow .flowMappingEnd
  | ',' => l.readFlowEntry
  | '*' => l.readAnchor .alias
  | '&' => l.readAnchor .anchor
  | '!' => l.readTag
  | '\'' => l.readQuoted '\'' .singleQuoted
  | '"' => l.readQuoted '"' .doubleQuoted
  | '-' => if gap then l.readBlockEntry else l.readPlain
  | '?' => if gap then l.readKey else l.readPlain
  | ':' =>
    if gap then l.readValue
    else if l.inFlow && (isFlow (l.cursor.peekAt 1) || l.cursor.index == l.adjacentAt) then
      l.readTightValue
    else l.readPlain
  | '|' => if l.inFlow then l.readPlain else l.readBlock .literal
  | '>' => if l.inFlow then l.readPlain else l.readBlock .folded
  | c =>
    if c = '%' ∨ c = '@' ∨ c = '\x60' then
      l.refuse ("unexpected character: `" ++ String.singleton c ++ "'")
    else l.readPlain

/-- Reads the next token, and those that mark the ends of blocks before it. -/
def next : Step := fun l => do
  let l ← (← l.skipBlanks).dropStaleKeys
  let l := l.closeBlocks l.cursor.column
  if l.cursor.atEnd then l.readEnd
  else if l.cursor.column = 0 ∧ l.cursor.peek = '%' then l.readDirective
  else if l.cursor.column = 0 ∧ l.cursor.atMarker '-' then l.readMarker .documentStart
  else if l.cursor.column = 0 ∧ l.cursor.atMarker '.' then l.readDocumentEnd
  else if l.cursor.column < l.indent then l.refuse "invalid indentation"
  else l.readToken

/-- The tokens so far, and the fault behind them. -/
def stop (l : Lexer) (fault : Option Complaint) : TokenStream :=
  ⟨l.tokens.reverse.take l.settled, fault⟩

/-- Reads the tokens of the rest of the text, or as many as the first argument says. -/
def readAll : Nat → Lexer → TokenStream
  | 0, l => l.stop none
  | n + 1, l =>
    match l.next.bind dropStaleKeys with
    | .error e => l.stop (some e)
    | .ok l' => if l'.ended then ⟨l'.tokens.reverse, none⟩ else l'.readAll n

end Lexer

/-- The tokens of a text. -/
def TokenStream.ofText (cs : List Char) : TokenStream :=
  let l := Lexer.ofText cs
  l.readAll (l.cursor.size + 1)

end PlatformWiring.Yaml
