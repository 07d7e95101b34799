import PlatformWiring.Yaml.Composer
import PlatformWiring.Yaml.Lexer

/-!
# YAML documents

A text holds one document: a node, perhaps between directives and markers. Who takes the
document apart meets its faults in the order of the text, so what is wrong behind the node is
kept beside it.

Behind a document nothing is looked at but whether another document follows and whether the
document has used its anchors too often.
-/

namespace PlatformWiring.Yaml

open Text (Position)

/-- A document, with its node and the fault behind the node. -/
structure Document where
  /-- the node at the top -/
  root : Node
  /-- what is wrong behind it -/
  fault? : Option Complaint
  deriving Inhabited

namespace Composer

/-- The token is a directive. -/
def isDirective : Lexeme → Bool
  | .version => true
  | .tagDirective _ _ => true
  | _ => false

/-- The token can only stand in front of a document or behind it. -/
def isOutside (lexeme : Lexeme) : Bool :=
  isDirective lexeme || lexeme == .documentStart || lexeme == .documentEnd ||
    lexeme == .streamEnd

/-- Skips the markers that end documents. -/
def skipEnds (c : Composer) : Composer :=
  { c with tokens := c.tokens.dropWhile fun t => t.lexeme == .documentEnd }

/-- Follows the directives at the beginning of the tokens. There is one version at most. Every
directive revokes what those before it declare, so that only the last one counts. -/
def declareAll (c : Composer) : (versioned : Bool) → List Token → Except Complaint Composer
  | _, [] => .ok { c with tokens := [] }
  | versioned, ⟨.version, p⟩ :: ts =>
    if versioned then .error (.atPlace p "duplicate version directive")
    else { c with tags := [] }.declareAll true ts
  | versioned, ⟨.tagDirective handle expansion, _⟩ :: ts =>
    { c with tags := [(handle, expansion)] }.declareAll versioned ts
  | _, t :: ts => .ok { c with tokens := t :: ts }

/-- The node of a document that begins with a marker. -/
def markedRoot (c : Composer) : Composed :=
  match c.peek with
  | .error e => broken e
  | .ok ⟨lexeme, p⟩ => if isOutside lexeme then c.leaveOut p else c.root

/-- A document that begins with directives and a marker. -/
def marked (c : Composer) : Composed :=
  match { c with tags := [] }.declareAll false c.tokens with
  | .error e => broken e
  | .ok c =>
    match c.peek with
    | .error e => broken e
    | .ok ⟨.documentStart, _⟩ => c.skip.markedRoot
    | .ok ⟨_, p⟩ => refuse p "did not find expected <document start>"

/-- The complaint about a text without a document. -/
def nothing (p : Position) : Complaint := .atPlace p "unexpected end of input"

/-- The node of the first document. -/
def first (c : Composer) : Composed :=
  let c := c.skipEnds
  match c.peek with
  | .error e => broken e
  | .ok ⟨lexeme, p⟩ =>
    if lexeme = .streamEnd then (.broken (nothing p), .ok c)
    else if isOutside lexeme then c.marked
    else c.root

/-- The complaint about a document that follows another. -/
def another (p : Position) : Complaint :=
  .atPlace p "multiple YAML documents detected; use from_multiple or from_multiple_with_options"

/-- What is wrong with a document that follows another: that it is there, unless a fault shows
before anything of its node can be told. -/
def surplus? (made : Composed) : Option Complaint :=
  (made.1.position?.map another).or made.1.fault?

/-- What is wrong with what begins where a document could follow another; nothing, if no document
begins there. -/
def following? (c : Composer) (ended : Bool) : Option Complaint :=
  match c.peek with
  | .error _ => none
  | .ok ⟨lexeme, _⟩ =>
    if isOutside lexeme || !ended then
      match c.declareAll false c.tokens with
      | .error _ => none
      | .ok c =>
        match c.peek with
        | .ok ⟨.documentStart, _⟩ => surplus? c.skip.markedRoot
        | _ => none
    else surplus? c.root

/-- The fewest aliases that can be too many. -/
def manyAliases : Nat := 100

/-- The most aliases for each anchor, if there are many of them. -/
def aliasesPerAnchor : Nat := 10

/-- The complaint about too many aliases for the anchors that there are. The text ends at the
place. -/
def surfeit? (c : Composer) (p : Position) : Option Complaint :=
  if manyAliases ≤ c.aliasCount ∧ aliasesPerAnchor * c.anchorCount < c.aliasCount then
    some (.atPlace p ("YAML budget breached: AliasAnchorRatio \x7b aliases: " ++
      toString c.aliasCount ++ ", anchors: " ++ toString c.anchorCount ++ " \x7d"))
  else none

/-- What is wrong behind a document. If it has not ended by a marker, only the marker of a new
document may follow. -/
def faultBehind? (c : Composer) : Option Complaint :=
  match c.peek with
  | .error e => some e
  | .ok ⟨lexeme, p⟩ =>
    let rest := c.skipEnds
    match rest.peek with
    | .error _ => c.surfeit? p
    | .ok t =>
      if t.lexeme = .streamEnd then c.surfeit? t.position
      else if isDirective lexeme then
        some (.atPlace p "missing explicit document end marker before directive")
      else ({ rest with tags := [] }.following? (lexeme == Lexeme.documentEnd)).or (c.surfeit? p)

end Composer

/-! ## Texts that are refused unread -/

/-- The complaint about the closing delimiters of a flow collection that stand apart. -/
def strayDelimiter : Complaint := ⟨"unexpected trailing closing delimiter", none⟩

/-- Two brackets that close, with a blank between them, occur in the text. -/
def hasStrayDelimiter : List Char → Bool
  | ']' :: ' ' :: ']' :: _ => true
  | _ :: cs => hasStrayDelimiter cs
  | [] => false

/-- The complaint about a scalar that seems to begin behind a comment. -/
def cutScalar : Complaint :=
  ⟨"invalid plain scalar: inline comment cannot be followed by a new top-level scalar line " ++
    "without a document marker", none⟩

/-- The line begins an entry of a block, with a dash or a question mark. -/
def beginsEntry (line : List Char) : Bool :=
  match line.dropWhile Text.isBlank with
  | c :: d :: _ => (c == '-' || c == '?') && d == ' '
  | _ => false

/-- A number sign stands behind some text without a colon, which begins no entry of a block. -/
def isCommented (line : List Char) : Bool :=
  match Text.cutAt '#' line with
  | some (before, _) =>
    (before.any fun c => !Text.isBlank c) && ':' ∉ before && !beginsEntry line
  | none => false

/-- The line is not indented and looks neither like a key nor like a marker or a comment. -/
def resumesScalar (line : List Char) : Bool :=
  (line.head?.any fun c => !Text.isBlank c && c != '#') && ':' ∉ line &&
    !"---".toList.isPrefixOf line && !"...".toList.isPrefixOf line

/-- A line with a comment behind its text is followed by one that seems to begin a scalar. -/
def hasCutScalar : List (List Char) → Bool
  | first :: second :: rest =>
    (isCommented first && resumesScalar second) || hasCutScalar (second :: rest)
  | _ => false

/-- The complaint about a text that is not read at all. -/
def refusedUnread? (cs : List Char) : Option Complaint :=
  if hasStrayDelimiter cs then some strayDelimiter
  else if hasCutScalar (Text.lines cs) then some cutScalar
  else none

/-- The text without a byte order mark in front. -/
def withoutMark : List Char → List Char
  | '\ufeff' :: cs => cs
  | cs => cs

/-- The document of a text. -/
def Document.ofText (text : String) : Document :=
  let cs := withoutMark text.toList
  match refusedUnread? cs with
  | some e => ⟨.broken e, none⟩
  | none =>
    let (root, after) := (Composer.ofTokens (.ofText cs)).first
    match after with
    | .error e => ⟨root, some e⟩
    | .ok c => ⟨root, c.faultBehind?⟩

end PlatformWiring.Yaml
