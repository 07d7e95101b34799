import PlatformWiring.Source.Imports

/-!
# The text of a source unit

A unit is first laid out as a list of pieces, which are either fixed text or a type to be
written. The imports then decide what each type looks like. Equal units have equal texts,
for the import lines are sorted and everything else keeps the order it has in the unit.
-/

namespace PlatformWiring

/-- A piece of a source text. -/
inductive Piece where
  /-- fixed text -/
  | text (s : String)
  /-- a type, written as the imports say -/
  | type (t : TypeName)
  deriving DecidableEq, Inhabited, Repr

namespace Piece

/-- The type that the piece writes. -/
def type? : Piece → Option TypeName
  | .text _ => none
  | .type t => some t

/-- The text of a piece. -/
def render (i : Imports) : Piece → String
  | .text s => s
  | .type t => i.write t

/-- The groups of pieces with a text between each two. -/
def joined (sep : String) : List (List Piece) → List Piece
  | [] => []
  | [ps] => ps
  | ps :: rest => ps ++ .text sep :: joined sep rest

end Piece

open Piece (joined)

/-- Modifiers, each followed by a blank. -/
def Modifier.pieces (ms : List Modifier) : List Piece :=
  ms.map fun m => .text (m.keyword ++ " ")

/-- A member of an annotation: its name and its class literals in braces. -/
def AnnotationMember.pieces (m : AnnotationMember) : List Piece :=
  [.text (m.name ++ " = \x7b")] ++
    joined ", " (m.classes.map fun c => [.type c, .text ".class"]) ++ [.text "\x7d"]

/-- An annotation; a marker has no parentheses. -/
def Annotation.pieces (a : Annotation) : List Piece :=
  [.text "@", .type a.type] ++
    if a.members = [] then []
    else [.text "("] ++ joined ", " (a.members.map (·.pieces)) ++ [.text ")"]

/-- A field on a line of its own. -/
def Field.pieces (f : Field) : List Piece :=
  [.text "  "] ++ Modifier.pieces f.modifiers ++ [.type f.type, .text (" " ++ f.name ++ ";\n")]

/-- A statement. -/
def Statement.pieces : Statement → List Piece
  | .returnNew t arguments =>
    [.text "return new ", .type t, .text ("(" ++ String.intercalate ", " arguments ++ ");")]
  | .returnCall receiver method => [.text ("return " ++ receiver ++ "." ++ method ++ "();")]
  | .assignField field parameter => [.text ("this." ++ field ++ " = " ++ parameter ++ ";")]

namespace Method

/-- The modifiers that are written: an interface implies `public` and `abstract` for a method
without a body. -/
def writtenModifiers (inside : UnitKind) (m : Method) : List Modifier :=
  if inside = .interface ∧ m.body = none then
    m.modifiers.filter fun x => decide (x ≠ .public ∧ x ≠ .abstract)
  else m.modifiers

/-- The parameters between the parentheses. -/
def parameterPieces (m : Method) : List Piece :=
  joined ", " (m.parameters.map fun p => [.type p.type, .text (" " ++ p.name)])

/-- What follows the parentheses: a semicolon, or the statements in braces. -/
def bodyPieces : Option (List Statement) → List Piece
  | none => [.text ";\n"]
  | some statements =>
    [.text " \x7b\n"] ++
      statements.flatMap (fun s => [.text "    "] ++ s.pieces ++ [.text "\n"]) ++
      [.text "  \x7d\n"]

/-- A method with its annotations. -/
def pieces (inside : UnitKind) (m : Method) : List Piece :=
  m.annotations.flatMap (fun a => [.text "  "] ++ a.pieces ++ [.text "\n"]) ++
    [.text "  "] ++ Modifier.pieces (m.writtenModifiers inside) ++
    (m.result.toList.flatMap fun t => [.type t, .text " "]) ++
    [.text (m.name ++ "(")] ++ m.parameterPieces ++ [.text ")"] ++ bodyPieces m.body

end Method

namespace SourceUnit

/-- The keyword of the kind of type. -/
def keyword (u : SourceUnit) : String :=
  match u.kind with
  | .interface => "interface"
  | .class => "class"

/-- The word before the listed interfaces. -/
def listsWith (u : SourceUnit) : String :=
  match u.kind with
  | .interface => "extends"
  | .class => "implements"

/-- The package line and the import lines. -/
def preamble (u : SourceUnit) (importLines : List String) : List Piece :=
  [.text ("package " ++ u.name.package ++ ";\n\n")] ++
    if importLines = [] then []
    else importLines.map (fun l => .text ("import " ++ l ++ ";\n")) ++ [.text "\n"]

/-- The annotations and the head of the type, up to its opening brace. -/
def head (u : SourceUnit) : List Piece :=
  u.annotations.flatMap (fun a => a.pieces ++ [.text "\n"]) ++
    Modifier.pieces u.modifiers ++ [.text (u.keyword ++ " " ++ u.name.simple)] ++
    (u.superclass.toList.flatMap fun t => [.text " extends ", .type t]) ++
    (if u.interfaces = [] then []
      else [.text (" " ++ u.listsWith ++ " ")] ++
        joined ", " (u.interfaces.map fun t => [.type t])) ++
    [.text " \x7b\n"]

/-- The blocks of the body: all fields together, then each method. -/
def blocks (u : SourceUnit) : List (List Piece) :=
  (if u.fields = [] then [] else [u.fields.flatMap (·.pieces)]) ++
    u.methods.map (·.pieces u.kind)

/-- The layout of the whole unit. -/
def pieces (u : SourceUnit) : List Piece :=
  u.preamble (Imports.ofUnit u).lines ++ u.head ++ joined "\n" u.blocks ++ [.text "\x7d\n"]

/-- The types that the text writes, in order. -/
def writtenTypes (u : SourceUnit) : List TypeName := u.pieces.filterMap (·.type?)

/-- The text of the unit. -/
def render (u : SourceUnit) : String :=
  let imports := Imports.ofUnit u
  String.join (u.pieces.map (·.render imports))

end SourceUnit

end PlatformWiring
