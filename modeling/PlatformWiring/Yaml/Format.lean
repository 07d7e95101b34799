import PlatformWiring.Document.Format
import PlatformWiring.Text.Base64
import PlatformWiring.Text.Blank
import PlatformWiring.Yaml.Merge

/-!
# YAML as a document format

YAML has no types of its own here: the schema says what a scalar stands for. A text takes any
scalar as it is written, unless its tag says that it is something else or holds bytes, and a
flag takes the words that YAML has for truth. A null stands for an empty list or mapping, and a
scalar of bytes for the list of them.
-/

namespace PlatformWiring.Yaml

open Text (Position)

namespace Node

/-- The complaint about a node of another kind. -/
def refuse {α : Type} (n : Node) (reason : String) : Except Complaint α :=
  match n with
  | .broken e => .error e
  | n => .error ⟨reason, n.position?⟩

/-- The complaint about a byte where something else is expected. -/
def refuseByte {α : Type} (n : UInt8) (expected : String) : Except Complaint α :=
  .error ⟨"invalid type: integer `" ++ toString n.toNat ++ "`, expected " ++ expected, none⟩

/-- The bytes that are written in base 64. -/
def bytes (p : Position) (text : String) : Except Complaint (List UInt8) :=
  match Text.Base64.decode (text.toList.filter fun c => !(c.isWhitespace || c == '\x0c')) with
  | none => .error (.atPlace p "invalid !!binary base64")
  | some bytes => .ok bytes

/-- The text whose bytes are written in base 64. -/
def bytesText (p : Position) (text : String) : Except Complaint String := do
  match String.fromUTF8? (← bytes p text).toByteArray with
  | none => .error (.atPlace p "!!binary scalar is not valid UTF-8")
  | some text => return text

/-- The text of a scalar; the first argument says what it is to be. -/
def text (expected : String) : Node → Except Complaint String
  | .scalar p _ .binary text => bytesText p text
  | .scalar p _ .null _ | .scalar p _ .notText _ =>
    .error (.atPlace p "cannot deserialize scalar tagged into string")
  | .scalar _ _ _ text => .ok text
  | .byte n => refuseByte n expected
  | n => n.refuse "unexpected event: expected string scalar"

/-- The text without blanks around it, in small letters as far as it is ASCII. -/
def word (text : String) : String :=
  let cs := text.toList.dropWhile Text.isBlank
  String.ofList ((cs.reverse.dropWhile Text.isBlank).reverse.map Char.toLower)

/-- The words for truth. -/
def trueWords : List String := ["y", "yes", "true", "on"]

/-- The words for falsehood. -/
def falseWords : List String := ["n", "no", "false", "off"]

/-- The flag that a scalar stands for. -/
def flag : Node → Except Complaint Bool
  | .scalar p _ _ text =>
    if word text ∈ trueWords then .ok true
    else if word text ∈ falseWords then .ok false
    else .error (.atPlace p ("invalid YAML 1.1 bool: `" ++ text ++ "`"))
  | .byte n => refuseByte n "a boolean"
  | n => n.refuse "unexpected event: expected string scalar"

/-- The items of a sequence. -/
def items : Node → Except Complaint (Run Complaint Node)
  | .sequence _ items fault? => .ok (.ofList fault? items)
  | .byte n => refuseByte n "a sequence"
  | n =>
    if n.isNull then .ok .done
    else match n with
      | .scalar p _ .binary text => (bytes p text).map fun bs => .ofList none (bs.map .byte)
      | n => n.refuse "unexpected event: expected sequence start"

/-- The complaint about what stands beside a choice. -/
def payloadFault? (fault? : Option Complaint) (others : List (Node × Node)) (payload : Node) :
    Option Complaint :=
  match payload with
  | .broken e => some e
  | payload =>
    if !payload.isBlank then some ⟨"unexpected value for unit enum variant", payload.position?⟩
    else match others with
      | [] => fault?
      | (.broken e, _) :: _ => some e
      | (k, _) :: _ => some ⟨"expected end of mapping after enum variant value", k.position?⟩

/-- A choice: a scalar, or a mapping whose only key is the choice. -/
def choice (shape : String) : Node → Except Complaint (Choice Complaint)
  | .scalar _ _ _ text => .ok ⟨text, none⟩
  | .mapping _ _ ((.scalar _ _ _ text, payload) :: others) fault? =>
    .ok ⟨text, payloadFault? fault? others payload⟩
  | .mapping _ _ ((k, _) :: _) _ => k.refuse "expected string key for externally tagged enum"
  | .mapping _ inside [] fault? =>
    .error (fault?.getD (.atPlace inside "expected string key for externally tagged enum"))
  | .byte n => refuseByte n ("enum " ++ shape)
  | n => n.refuse "externally tagged enum expected scalar or mapping"

/-- The entries with the texts of their keys. -/
def named : Run Complaint (Node × Node) → Run Complaint (String × Node)
  | .done => .done
  | .broken e => .broken e
  | .next (k, v) rest =>
    match k.text "a string" with
    | .error e => .broken e
    | .ok name => .next (name, v) (named rest)

/-- The fields of a mapping. -/
def fields (shape : String) : Node → Except Complaint (Run Complaint (String × Node))
  | .mapping _ _ es fault? => .ok (named (entries fault? [] [] es))
  | .byte n => refuseByte n ("struct " ++ shape)
  | n => if n.isNull then .ok .done else n.refuse "unexpected event: expected mapping start"

/-- Violations of the schema have no place in the text. -/
def violates (fault : SchemaFault) : Complaint := ⟨fault.message, none⟩

/-- YAML nodes as a document format. -/
def format : Format Node Complaint where
  violates := violates
  text := text
  flag := flag
  given? n := if n.isAbsent then none else some n
  items := items
  choice := choice
  fields shape _ n := (n.fields shape).map fun entries =>
    ⟨entries, fun _ name => violates (.missingField name)⟩

end Node

end PlatformWiring.Yaml
