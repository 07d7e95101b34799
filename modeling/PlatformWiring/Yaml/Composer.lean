import PlatformWiring.Text.Blank
import PlatformWiring.Yaml.Node

/-!
# From tokens to nodes

Nodes are composed from tokens by recursive descent. An alias is replaced by the node that
its anchor names, which keeps the position it was written at.

Composing never fails as a whole: the first fault ends up in the node, in place of all that
would have come after it.
-/

namespace PlatformWiring.Yaml

open Text (Position)

/-- The tokens to come and what was declared so far. -/
structure Composer where
  /-- the tokens to come -/
  tokens : List Token
  /-- the fault behind the tokens -/
  fault : Complaint
  /-- the anchors by name, latest first, with their numbers -/
  anchors : List (String × Nat)
  /-- the number of the last anchor -/
  anchorCount : Nat
  /-- the number of aliases so far -/
  aliasCount : Nat
  /-- the finished nodes that have an anchor, by its number -/
  nodes : List (Nat × Node)
  /-- what tag handles stand for -/
  tags : List (String × String)
  /-- the number of collections that are open -/
  depth : Nat

/-- A node, and what comes after it, or the fault that cuts it off. -/
abbrev Composed := Node × Except Complaint Composer

/-- The parts of a collection, and what comes after it, or the fault that cuts it off. -/
abbrev Collected (α : Type) := List α × Except Complaint Composer

/-- The properties in front of a node. -/
structure Properties where
  anchor? : Option Nat
  tag : Tag

namespace Composer

/-- The composer of a token stream. -/
def ofTokens (s : TokenStream) : Composer :=
  ⟨s.tokens, s.fault.getD ⟨"unexpected end of the token stream", none⟩, [], 0, 0, [], [], 0⟩

/-- The composer without its first token. -/
def skip (c : Composer) : Composer := { c with tokens := c.tokens.tail }

/-- The next token. -/
def peek (c : Composer) : Except Complaint Token :=
  match c.tokens with
  | [] => .error c.fault
  | t :: _ => .ok t

/-- The fault that cuts a node off. -/
def broken (e : Complaint) : Composed := (.broken e, .error e)

/-- The fault that cuts a collection off. -/
def cut {α : Type} (e : Complaint) : Collected α := ([], .error e)

/-- A complaint about a place that cuts a node off. -/
def refuse (p : Position) (reason : String) : Composed := broken (.atPlace p reason)

/-- An item, and the others if it was not cut off. -/
def collect (item : Composed) (others : Composer → Collected Node) : Collected Node :=
  match item.2 with
  | .error e => ([item.1], .error e)
  | .ok c => let (items, after) := others c; (item.1 :: items, after)

/-- An entry, and the others if it was not cut off. -/
def collectEntry (key : Composed) (value : Composer → Composed)
    (others : Composer → Collected (Node × Node)) : Collected (Node × Node) :=
  match key.2 with
  | .error e => ([(key.1, .broken e)], .error e)
  | .ok c =>
    let v := value c
    match v.2 with
    | .error e => ([(key.1, v.1)], .error e)
    | .ok c' => let (entries, after) := others c'; ((key.1, v.1) :: entries, after)

/-- The fault that cut a collection off. -/
def faultOf? : Except Complaint Composer → Option Complaint
  | .error e => some e
  | .ok _ => none

/-- The most collections that may be open at a time. -/
def maxDepth : Nat := 2000

/-- A collection that begins at a place, unless too many are open. -/
def within (p : Position) (c : Composer) (collection : Composer → Composed) : Composed :=
  if c.depth < maxDepth then
    let (made, after) := collection { c with depth := c.depth + 1 }
    (made, after.map fun c' => { c' with depth := c.depth })
  else
    refuse p ("YAML budget breached: Depth \x7b depth: " ++ toString (c.depth + 1) ++ " \x7d")

/-- A sequence of items. -/
def sequenceOf (p : Position) (c : Composer) (items : Composer → Collected Node) : Composed :=
  within p c fun c =>
    let (found, after) := items c
    (.sequence p found (faultOf? after), after)

/-- The place of the next token, or one that stands in for it if there is none. -/
def placeOr (c : Composer) (p : Position) : Position := (c.tokens.head?.map (·.position)).getD p

/-- A mapping of entries that follow the token at a place. -/
def mappingOf (p : Position) (c : Composer) (entries : Composer → Collected (Node × Node)) :
    Composed :=
  within p c fun c =>
    let (found, after) := entries c.skip
    (.mapping p (c.skip.placeOr p) found (faultOf? after), after)

/-! ## Properties -/

/-- What a tag says. A handle between two marks has to be declared. -/
def readTagOf (c : Composer) (p : Position) (handle suffix : String) : Except Complaint Tag :=
  match c.tags.find? (·.1 = handle) with
  | some (_, expansion) => .ok (.ofParts expansion suffix)
  | none =>
    if handle = "!!" then .ok (.ofParts Tag.standard suffix)
    else if 2 ≤ handle.length ∧ handle.toList.head? = some '!' ∧
        handle.toList.getLast? = some '!' then
      .error (.atPlace p "the handle wasn't declared")
    else .ok (.ofParts handle suffix)

/-- Numbers an anchor. -/
def declareAnchor (c : Composer) (name : String) : Composer :=
  { c with
    anchors := (name, c.anchorCount + 1) :: c.anchors
    anchorCount := c.anchorCount + 1 }

/-- Reads an anchor, if one comes next. -/
def readAnchor (c : Composer) : Except Complaint (Option Nat × Composer) := do
  match (← c.peek).lexeme with
  | .anchor name => return (some (c.anchorCount + 1), c.skip.declareAnchor name)
  | _ => return (none, c)

/-- Reads a tag, if one comes next. -/
def readTag (c : Composer) : Except Complaint (Tag × Composer) := do
  match ← c.peek with
  | ⟨.tag handle suffix, p⟩ => return (← c.readTagOf p handle suffix, c.skip)
  | _ => return (.none, c)

/-- Reads an anchor and a tag, in either order. -/
def readProperties (c : Composer) : Except Complaint (Properties × Composer) := do
  match ← c.readAnchor with
  | (some anchor, c) =>
    let (tag, c) ← c.readTag
    return (⟨some anchor, tag⟩, c)
  | (none, c) =>
    match ← c.readTag with
    | (.none, c) => return (⟨none, .none⟩, c)
    | (tag, c) =>
      let (anchor?, c) ← c.readAnchor
      return (⟨anchor?, tag⟩, c)

/-- The node of an alias. -/
def resolve (c : Composer) (p : Position) (name : String) : Composed :=
  let c := { c with aliasCount := c.aliasCount + 1 }
  match c.anchors.find? (·.1 = name) with
  | none => refuse p "while parsing node, found unknown anchor"
  | some (_, n) =>
    match c.nodes.find? (·.1 = n) with
    | none => refuse p ("alias references unknown anchor id " ++ toString n)
    | some (_, node) => (node, .ok c)

/-- Keeps a finished node for the aliases of its anchor. -/
def keep (anchor? : Option Nat) (made : Composed) : Composed :=
  match anchor?, made.2 with
  | some n, .ok c => (made.1, .ok { c with nodes := (n, made.1) :: c.nodes })
  | _, _ => made

/-! ## Nodes -/

/-- The node of a scalar. One that has an anchor and nothing between its quotes is as good as one
without quotes. The text of a folded scalar has to be indented. -/
def scalar (c : Composer) (p : Position) (style : Style) (text : String)
    (properties : Properties) : Composed :=
  if style = .folded ∧ p.column = 1 ∧ text.toList.any fun d => !Text.isBlank d then
    refuse p "folded block scalars must indent their content"
  else
    let style := if style.isQuoted && text.isEmpty && properties.anchor?.isSome then .plain
      else style
    (.scalar p style properties.tag text, .ok c.skip)

/-- A node that was left out. -/
def leaveOut (c : Composer) (p : Position) : Composed := (.leftOut p, .ok c)

/-- The complaint about nesting that the given measure does not cover. -/
def tooDeep : Complaint := ⟨"the document is nested too deeply", none⟩

mutual

/-- A node. Inside a block it may be a block itself, and after a key a sequence of dashes that
are not indented. The first argument bounds the nesting. -/
def node : Nat → (block dashes : Bool) → Composer → Composed
  | 0, _, _, _ => broken tooDeep
  | n + 1, block, dashes, c =>
    match c.peek with
    | .error e => broken e
    | .ok ⟨.alias name, p⟩ => c.skip.resolve p name
    | .ok _ =>
      match c.readProperties with
      | .error e => broken e
      | .ok (properties, c) => keep properties.anchor? (content n block dashes properties c)

/-- A node after its properties. -/
def content : Nat → (block dashes : Bool) → Properties → Composer → Composed
  | 0, _, _, _, _ => broken tooDeep
  | n + 1, block, dashes, properties, c =>
    match c.peek with
    | .error e => broken e
    | .ok ⟨lexeme, p⟩ =>
      match lexeme, block, dashes with
      | .blockEntry, _, true => sequenceOf p c (dashItems n)
      | .scalar style text, _, _ => c.scalar p style text properties
      | .flowSequenceStart, _, _ => sequenceOf p c.skip (flowItems n true)
      | .flowMappingStart, _, _ => mappingOf p c (flowEntries n true)
      | .blockSequenceStart, true, _ => sequenceOf p c.skip (blockItems n)
      | .blockMappingStart, true, _ => mappingOf p c (blockEntries n)
      | _, _, _ =>
        if properties.tag != .none || properties.anchor?.isSome then
          (.scalar p .plain properties.tag "", .ok c)
        else refuse p "while parsing a node, did not find expected node content"

/-- The items of an indented block sequence. -/
def blockItems : Nat → Composer → Collected Node
  | 0, _ => cut tooDeep
  | n + 1, c =>
    match c.peek with
    | .error e => cut e
    | .ok ⟨.blockEnd, _⟩ => ([], .ok c.skip)
    | .ok ⟨.blockEntry, _⟩ =>
      match c.skip.peek with
      | .error e => cut e
      | .ok ⟨lexeme, p⟩ =>
        let item := if lexeme = .blockEntry ∨ lexeme = .blockEnd then c.skip.leaveOut p
          else node n true false c.skip
        collect item (blockItems n)
    | .ok ⟨_, p⟩ =>
      cut (.atPlace p "while parsing a block collection, did not find expected '-' indicator")

/-- The items of a sequence of dashes that are not indented. -/
def dashItems : Nat → Composer → Collected Node
  | 0, _ => cut tooDeep
  | n + 1, c =>
    match c.peek with
    | .error e => cut e
    | .ok ⟨.blockEntry, _⟩ =>
      match c.skip.peek with
      | .error e => cut e
      | .ok ⟨lexeme, p⟩ =>
        let item :=
          if lexeme = .blockEntry ∨ lexeme = .key ∨ lexeme = .value ∨ lexeme = .blockEnd then
            c.skip.leaveOut p
          else node n true false c.skip
        collect item (dashItems n)
    | .ok _ => ([], .ok c)

/-- The value in a block mapping. -/
def blockValue : Nat → Composer → Composed
  | 0, _ => broken tooDeep
  | n + 1, c =>
    match c.peek with
    | .error e => broken e
    | .ok ⟨.value, p⟩ =>
      match c.skip.peek with
      | .error e => broken e
      | .ok ⟨lexeme, _⟩ =>
        if lexeme = .key ∨ lexeme = .value ∨ lexeme = .blockEnd then c.skip.leaveOut p
        else node n true true c.skip
    | .ok ⟨_, p⟩ => c.leaveOut p

/-- The entries of a block mapping. -/
def blockEntries : Nat → Composer → Collected (Node × Node)
  | 0, _ => cut tooDeep
  | n + 1, c =>
    match c.peek with
    | .error e => cut e
    | .ok ⟨.blockEnd, _⟩ => ([], .ok c.skip)
    | .ok ⟨.value, p⟩ => collectEntry (c.leaveOut p) (blockValue n) (blockEntries n)
    | .ok ⟨.key, _⟩ =>
      match c.skip.peek with
      | .error e => cut e
      | .ok ⟨lexeme, p⟩ =>
        let key :=
          if lexeme = .key ∨ lexeme = .value ∨ lexeme = .blockEnd then c.skip.leaveOut p
          else node n true true c.skip
        collectEntry key (blockValue n) (blockEntries n)
    | .ok ⟨_, p⟩ =>
      cut (.atPlace p "while parsing a block mapping, did not find expected key")

/-- The value in a flow collection that `closing` ends. -/
def flowValue : Nat → (closing : Lexeme) → Composer → Composed
  | 0, _, _ => broken tooDeep
  | n + 1, closing, c =>
    match c.peek with
    | .error e => broken e
    | .ok ⟨.value, p⟩ =>
      match c.skip.peek with
      | .error e => broken e
      | .ok ⟨lexeme, _⟩ =>
        if lexeme = .flowEntry ∨ lexeme = closing then c.skip.leaveOut p
        else node n false false c.skip
    | .ok ⟨_, p⟩ => c.leaveOut p

/-- A key in a flow collection that `closing` ends. In a sequence, the token that shows that there
is no key does not count any more. -/
def flowKey : Nat → (closing : Lexeme) → Composer → Composed
  | 0, _, _ => broken tooDeep
  | n + 1, closing, c =>
    match c.peek with
    | .error e => broken e
    | .ok ⟨lexeme, p⟩ =>
      if lexeme = .value ∨ lexeme = .flowEntry ∨ lexeme = closing then
        (if closing = .flowSequenceEnd then c.skip else c).leaveOut p
      else node n false false c

/-- The entries of a flow mapping, after a comma unless they are the first. -/
def flowEntries : Nat → (first : Bool) → Composer → Collected (Node × Node)
  | 0, _, _ => cut tooDeep
  | n + 1, first, c =>
    match c.peek with
    | .error e => cut e
    | .ok ⟨.flowMappingEnd, _⟩ => ([], .ok c.skip)
    | .ok ⟨lexeme, p⟩ =>
      if !first && lexeme != .flowEntry then
        cut (.atPlace p "while parsing a flow mapping, did not find expected ',' or '\x7d'")
      else
        let c := if first then c else c.skip
        match c.peek with
        | .error e => cut e
        | .ok ⟨.flowMappingEnd, _⟩ => ([], .ok c.skip)
        | .ok ⟨.key, _⟩ =>
          collectEntry (flowKey n .flowMappingEnd c.skip) (flowValue n .flowMappingEnd)
            (flowEntries n false)
        | .ok ⟨.value, p⟩ =>
          collectEntry (c.leaveOut p) (flowValue n .flowMappingEnd) (flowEntries n false)
        | .ok _ => collectEntry (node n false false c) noValue (flowEntries n false)

/-- The value of a key that stands alone. -/
def noValue (c : Composer) : Composed :=
  match c.peek with
  | .error e => broken e
  | .ok ⟨_, p⟩ => c.leaveOut p

/-- The items of a flow sequence, after a comma unless they are the first. An item may be a
single entry of a mapping. -/
def flowItems : Nat → (first : Bool) → Composer → Collected Node
  | 0, _, _ => cut tooDeep
  | n + 1, first, c =>
    match c.peek with
    | .error e => cut e
    | .ok ⟨.flowSequenceEnd, _⟩ => ([], .ok c.skip)
    | .ok ⟨lexeme, p⟩ =>
      if !first && lexeme != .flowEntry then
        cut (.atPlace p "while parsing a flow sequence, expected ',' or ']'")
      else
        let c := if first then c else c.skip
        match c.peek with
        | .error e => cut e
        | .ok ⟨.flowSequenceEnd, _⟩ => ([], .ok c.skip)
        | .ok ⟨.key, p⟩ =>
          let entry := mappingOf p c fun c => collectEntry (flowKey n .flowSequenceEnd c)
            (flowValue n .flowSequenceEnd) fun c => ([], .ok c)
          collect entry (flowItems n false)
        | .ok _ => collect (node n false false c) (flowItems n false)

end

/-- The nesting that the tokens of a composer can reach. -/
def measure (c : Composer) : Nat := 4 * c.tokens.length + 16

/-- The node at the top of a document. -/
def root (c : Composer) : Composed := node c.measure true false c

end Composer

end PlatformWiring.Yaml
