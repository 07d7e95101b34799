import PlatformWiring.Text.Blank
import PlatformWiring.Text.Lowercase
import PlatformWiring.Yaml.Complaint

/-!
# Diagnostics of Wirefiles

A complaint about a document, made presentable: it says where the fault is, points into the
text, and adds advice when the wording of the complaint shows a common mistake. A tab in the
indentation of the faulty line is the likeliest mistake of all and wins over the wording.
-/

namespace PlatformWiring

open Text (Position Span)

/-- A complaint with what a user needs to find and mend the fault. -/
structure Diagnostic where
  /-- the complaint -/
  complaint : Complaint
  /-- the bytes of the document that the complaint is about -/
  span : Option Span
  /-- what may help -/
  advice : Option String
  deriving DecidableEq, Repr

namespace Diagnostic

/-- The stable identifier of every diagnostic. -/
def code : String := "stepwire::yaml::parse"

/-- What a span says about the bytes it covers. -/
def label : String := "parse error here"

/-- A part of a complaint, in small letters, and the advice for it. -/
def advices : List (String × String) :=
  [("did not find expected '-'",
    "Sequence entries such as types and steps need a leading '-' at a consistent indent."),
   ("expected ':'", "Separate every key from its value with ':'."),
   ("mapping values are not allowed",
    "A value contains a bare ':'; quote it or fix the indentation above it."),
   ("found character that cannot start any token",
    "Indent with spaces; tabs and stray characters are not valid YAML."),
   ("unknown field",
    "Check the key name; a Wirefile accepts wire_version, platforms, layout, types and steps."),
   ("malformed type name",
    "Use fully qualified type names such as com.example.actions.PaymentActions."),
   ("unknown variant",
    "Platforms are ios and droid; type kinds are class, abstract_class and interface."),
   ("platform selection is empty",
    "Name at least one platform, or remove the platforms key to generate for every platform.")]

/-- The advice about tabs. -/
def tabAdvice : String := "Use spaces for indentation; tabs are invalid in YAML."

/-- The part occurs in the text. -/
def occurs (part : List Char) : List Char → Bool
  | [] => part.isEmpty
  | c :: cs => part.isPrefixOf (c :: cs) || occurs part cs

/-- The line of a position is indented with a tab. -/
def hasTabIndent (document : List Char) (p : Position) : Bool :=
  let line := ((Text.lines document)[p.line - 1]?).getD []
  decide ('\t' ∈ line.takeWhile Text.isBlank)

/-- The advice for a complaint: the one about tabs, or the first that its wording shows. -/
def adviceFor (document : List Char) (c : Complaint) : Option String :=
  if (c.position.map (hasTabIndent document)).getD false then some tabAdvice
  else
    let wording := Text.lowercaseAll c.text.toList
    (advices.find? fun (part, _) => occurs part.toList wording).map (·.2)

/-- The diagnostic of a complaint about a document. -/
def of (document : String) (c : Complaint) : Diagnostic :=
  { complaint := c
    span := c.position.map fun p => p.span document.toList
    advice := adviceFor document.toList c }

/-- The diagnostic in words. A complaint without a position is shown at the beginning. -/
def message (d : Diagnostic) : String :=
  let p := d.complaint.position.getD ⟨1, 1⟩
  "YAML error at line " ++ toString p.line ++ ", column " ++ toString p.column ++ ": " ++
    d.complaint.text

end Diagnostic

end PlatformWiring
