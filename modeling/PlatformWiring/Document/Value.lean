import PlatformWiring.Document.Format
import PlatformWiring.Text.Decimal

/-!
# Plain values

Documents as nested values: texts, flags, numbers, lists and records. A record may also be
written as the list of its fields in order, of which those at the end may be left out.
-/

namespace PlatformWiring

/-- A plain value. -/
inductive Value where
  | null
  | bool (b : Bool)
  | integer (n : Int)
  | float (x : Float)
  | text (s : String)
  | list (items : List Value)
  | record (fields : List (String × Value))
  deriving Inhabited

namespace Value

/-- Why a value is not what the schema asks for. -/
inductive Fault where
  /-- the schema is violated -/
  | schema (fault : SchemaFault)
  /-- the value has another form; both are given in words -/
  | wrongForm (found expected : String)
  /-- a list in place of a record is too short or too long -/
  | wrongLength (length : Nat) (expected : String)
  /-- a choice with a payload needs to be a record with one field -/
  | notSingle
  deriving DecidableEq, Repr

/-- The complaint in words. -/
def Fault.message : Fault → String
  | .schema fault => fault.message
  | .wrongForm found expected => "invalid type: " ++ found ++ ", expected " ++ expected
  | .wrongLength length expected =>
    "invalid length " ++ toString length ++ ", expected " ++ expected
  | .notSingle => "invalid value: map, expected map with a single key"

/-- The value in words. -/
def describe : Value → String
  | .null => "null"
  | .bool b => "boolean `" ++ toString b ++ "`"
  | .integer n => "integer `" ++ toString n ++ "`"
  | .float x => "floating point `" ++ Text.writeFloat x ++ "`"
  | .text s => "string " ++ Text.quote s
  | .list _ => "sequence"
  | .record _ => "map"

/-- The complaint about a value of another form. -/
def refuse {α : Type} (v : Value) (expected : String) : Except Fault α :=
  .error (.wrongForm v.describe expected)

/-- The complaint about something beside a choice. -/
def payloadFault? : Value → Option Fault
  | .null => none
  | v => some (.wrongForm v.describe "unit")

/-- A choice: a text, or a record whose only field is the choice. -/
def choice : Value → Except Fault (Choice Fault)
  | .text s => .ok ⟨s, none⟩
  | .record [(s, payload)] => .ok ⟨s, payload.payloadFault?⟩
  | .record _ => .error .notSingle
  | v => v.refuse "string or map"

/-- The fields of a record that is written as a list. -/
def listedFields (shape : String) (names : List String) (items : List Value) :
    Fields Value Fault where
  entries := Run.ofList
    (if items.length ≤ names.length then none
      else some (.wrongLength items.length "fewer elements in array"))
    (names.zip items)
  absent i _ := .wrongLength i
    ("struct " ++ shape ++ " with " ++ toString names.length ++ " elements")

/-- The fields of a record. -/
def fields (shape : String) (names : List String) : Value → Except Fault (Fields Value Fault)
  | .record entries =>
    .ok ⟨Run.ofList none entries, fun _ name => .schema (.missingField name)⟩
  | .list items => .ok (listedFields shape names items)
  | v => v.refuse ("struct " ++ shape)

/-- Plain values as a document format. -/
def format : Format Value Fault where
  violates := .schema
  text expected := fun
    | .text s => .ok s
    | v => v.refuse expected
  flag := fun
    | .bool b => .ok b
    | v => v.refuse "a boolean"
  given? := fun
    | .null => none
    | v => some v
  items := fun
    | .list items => .ok (Run.ofList none items)
    | v => v.refuse "a sequence"
  choice _ := choice
  fields := fields

end Value

end PlatformWiring
