import PlatformWiring.Wirefile.Decode
import PlatformWiring.Wirefile.Diagnostic
import PlatformWiring.Yaml.Document
import PlatformWiring.Yaml.Format

/-!
# Wirefiles as texts

A Wirefile is a YAML document. It is taken apart first; only then the text behind it is looked
at, and last the version of its format.
-/

namespace PlatformWiring

namespace Wirefile

/-- The major version of the format that is understood. -/
def supportedMajor : Nat := 1

/-- Why a text is no Wirefile. -/
inductive ReadError where
  /-- the text is no document of the right form -/
  | malformed (diagnostic : Diagnostic)
  /-- the version of the format is not understood -/
  | unsupportedVersion (found : Version)
  deriving DecidableEq, Repr

namespace ReadError

/-- The complaint in words, about the Wirefile of this name. -/
def message (name : String) : ReadError → String
  | .malformed _ => "failed to parse Wirefile " ++ name
  | .unsupportedVersion found =>
    "unsupported wire_version " ++ found.write ++ "; this build reads 1.x Wirefiles"

/-- The stable identifier. -/
def code : ReadError → String
  | .malformed _ => "stepwire::manifest::parse"
  | .unsupportedVersion _ => "stepwire::manifest::unsupported_version"

/-- What may help. -/
def help : ReadError → Option String
  | .malformed _ => none
  | .unsupportedVersion _ => some "set wire_version to a 1.x version such as \"1.0.0\""

end ReadError

/-- The Wirefile in a text, whatever its version. -/
def decode (text : String) : Except Complaint Wirefile :=
  let document := Yaml.Document.ofText text
  match Yaml.Node.format.wirefile document.root, document.fault? with
  | .error c, _ => .error c
  | .ok _, some c => .error c
  | .ok w, none => .ok w

/-- The Wirefile in a text. -/
def read (text : String) : Except ReadError Wirefile :=
  match decode text with
  | .error c => .error (.malformed (.of text c))
  | .ok w =>
    if w.version.major = supportedMajor then .ok w else .error (.unsupportedVersion w.version)

end Wirefile

end PlatformWiring
