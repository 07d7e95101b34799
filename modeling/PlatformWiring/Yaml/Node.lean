import PlatformWiring.Yaml.Tag
import PlatformWiring.Yaml.Token

/-!
# Nodes of a YAML document

A document is a tree of scalars, sequences and mappings. A fault of the text cuts the tree
off: what can be told before it shows is there, and the fault takes the place of the rest.
-/

namespace PlatformWiring.Yaml

open Text (Position)

/-- A node of a document. -/
inductive Node where
  /-- a scalar -/
  | scalar (position : Position) (style : Style) (tag : Tag) (text : String)
  /-- a byte of a scalar that stands for bytes -/
  | byte (value : UInt8)
  /-- a sequence, and the fault after its items -/
  | sequence (position : Position) (items : List Node) (fault? : Option Complaint)
  /-- a mapping, with the place of its first key or, if it has none, of its end, and the fault
  after its entries -/
  | mapping (position inside : Position) (entries : List (Node × Node))
    (fault? : Option Complaint)
  /-- a fault in place of a node -/
  | broken (fault : Complaint)
  deriving Inhabited

namespace Node

/-- The scalar that stands where a node was left out. -/
def leftOut (p : Position) : Node := .scalar p .plain .none "~"

/-- Where the node begins, if it has a place in the text and no fault has taken it. -/
def position? : Node → Option Position
  | .scalar p _ _ _ => some p
  | .sequence p _ _ => some p
  | .mapping p _ _ _ => some p
  | .byte _ | .broken _ => none

/-- The node is a plain scalar whose text stands for nothing. -/
def isBlank : Node → Bool
  | .scalar _ .plain _ text =>
    text.isEmpty || text == "~" || text.toList.map Char.toLower == "null".toList
  | _ => false

/-- The node is a scalar that stands for nothing, by its text or by its tag. -/
def isNull : Node → Bool
  | .scalar p style tag text => tag == .null || (Node.scalar p style tag text).isBlank
  | _ => false

/-- The node says that there is no value: a null, or any scalar without text and without quotes. -/
def isAbsent : Node → Bool
  | .scalar p style tag text =>
    (Node.scalar p style tag text).isNull || (text.isEmpty && !style.isQuoted)
  | _ => false

mutual

/-- The first fault in a node. -/
def fault? : Node → Option Complaint
  | .scalar _ _ _ _ | .byte _ => none
  | .sequence _ items fault => (faultInItems? items).or fault
  | .mapping _ _ entries fault => (faultInEntries? entries).or fault
  | .broken fault => some fault

/-- The first fault in a list of nodes. -/
def faultInItems? : List Node → Option Complaint
  | [] => none
  | n :: ns => n.fault?.or (faultInItems? ns)

/-- The first fault in the entries of a mapping. -/
def faultInEntries? : List (Node × Node) → Option Complaint
  | [] => none
  | (k, v) :: es => (k.fault?.or v.fault?).or (faultInEntries? es)

end

end Node

end PlatformWiring.Yaml
