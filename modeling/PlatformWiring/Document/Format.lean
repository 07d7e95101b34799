import PlatformWiring.Document.Fault
import PlatformWiring.Document.Run

/-!
# Document formats

A schema is read the same way from every format. What a format has to offer is a way to
take its values for texts, flags, lists, choices and records, and the faults that it
raises when a value is none of these. Records and lists of a schema are built from that.

The fields of a record are read in the order of the document. A field that is absent keeps
the value that the record started with.
-/

namespace PlatformWiring

/-- A choice: its name, and the fault of what stands beside it, if anything does. -/
structure Choice (ε : Type) where
  /-- the name -/
  name : String
  /-- the complaint about a payload -/
  payload? : Option ε

/-- The fields of a record as a document gives them. -/
structure Fields (ν ε : Type) where
  /-- names and values, in the order of the document -/
  entries : Run ε (String × ν)
  /-- the complaint about an absent field, by its position in the record and its name -/
  absent : Nat → String → ε

/-- How the values `ν` of a format are taken for what a schema asks for. -/
structure Format (ν ε : Type) where
  /-- the complaint about a violation of the schema -/
  violates : SchemaFault → ε
  /-- a text; the argument says what the text is to be -/
  text : String → ν → Except ε String
  /-- a flag -/
  flag : ν → Except ε Bool
  /-- the value, unless the document says that there is none -/
  given? : ν → Option ν
  /-- the items of a list -/
  items : ν → Except ε (Run ε ν)
  /-- a choice of the kind with this name -/
  choice : String → ν → Except ε (Choice ε)
  /-- the fields of the record with this name, which has these fields -/
  fields : String → List String → ν → Except ε (Fields ν ε)

/-- A field of the record `σ`. -/
structure FieldSlot (ν ε σ : Type) where
  /-- its name -/
  name : String
  /-- it has to be given -/
  required : Bool
  /-- the record with the field set to what a value stands for -/
  set : σ → ν → Except ε σ

namespace Format

variable {ν ε σ α : Type}

/-- A list. -/
def list (f : Format ν ε) (read : ν → Except ε α) (v : ν) : Except ε (List α) :=
  match f.items v with
  | .error fault => .error fault
  | .ok run => run.readAll read

/-- A value that may be absent. -/
def optional (f : Format ν ε) (read : ν → Except ε α) (v : ν) : Except ε (Option α) :=
  match f.given? v with
  | none => .ok none
  | some v => (read v).map some

/-- One of the named values. -/
def oneOf (f : Format ν ε) (shape : String) (name : α → String) (offered : List α) (v : ν) :
    Except ε α :=
  match f.choice shape v with
  | .error fault => .error fault
  | .ok choice =>
    match offered.find? (fun a => name a = choice.name), choice.payload? with
    | none, _ => .error (f.violates (.unknownChoice choice.name (offered.map name)))
    | some _, some fault => .error fault
    | some a, none => .ok a

/-- The first required field that was not given, with its position. -/
def absentFrom (given : List String) :
    Nat → List (FieldSlot ν ε σ) → Option (Nat × String)
  | _, [] => none
  | i, slot :: slots =>
    if slot.required ∧ slot.name ∉ given then some (i, slot.name)
    else absentFrom given (i + 1) slots

/-- Sets the fields of a record in the order of the document. -/
def setAll (f : Format ν ε) (slots : List (FieldSlot ν ε σ)) (absent : Nat → String → ε)
    (given : List String) (s : σ) : Run ε (String × ν) → Except ε σ
  | .done =>
    match absentFrom given 0 slots with
    | some (i, name) => .error (absent i name)
    | none => .ok s
  | .broken fault => .error fault
  | .next (name, v) rest =>
    match slots.find? (fun slot => slot.name = name) with
    | none => .error (f.violates (.unknownField name (slots.map (·.name))))
    | some slot =>
      if name ∈ given then .error (f.violates (.repeatedField name))
      else match slot.set s v with
        | .error fault => .error fault
        | .ok s' => setAll f slots absent (name :: given) s' rest

/-- A record. -/
def record (f : Format ν ε) (shape : String) (slots : List (FieldSlot ν ε σ)) (start : σ)
    (v : ν) : Except ε σ :=
  match f.fields shape (slots.map (·.name)) v with
  | .error fault => .error fault
  | .ok fields => setAll f slots fields.absent [] start fields.entries

end Format

end PlatformWiring
