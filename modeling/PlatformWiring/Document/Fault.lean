import PlatformWiring.TypeName
import PlatformWiring.Platform
import PlatformWiring.Version

/-!
# Faults against a schema

What can be wrong with a document whose values have the right form: fields and choices that
the schema does not know, fields that are absent or given twice, and texts that stand for
nothing.
-/

namespace PlatformWiring

/-- A violation of the schema. -/
inductive SchemaFault where
  /-- a field that the record does not have -/
  | unknownField (name : String) (known : List String)
  /-- a field that has to be given -/
  | missingField (name : String)
  /-- a field that was given before -/
  | repeatedField (name : String)
  /-- a choice that is not offered -/
  | unknownChoice (name : String) (known : List String)
  /-- a text that names no type -/
  | malformedName (fault : MalformedName)
  /-- a text that is no version -/
  | malformedVersion (fault : Version.Fault)
  /-- a selection of no platforms -/
  | emptySelection
  deriving DecidableEq, Repr

namespace SchemaFault

/-- The name in backticks. -/
def ticked (name : String) : String := "`" ++ name ++ "`"

/-- The names that would have been right. -/
def offer : List String → String
  | [] => "nothing"
  | [a] => ticked a
  | [a, b] => ticked a ++ " or " ++ ticked b
  | names => "one of " ++ String.intercalate ", " (names.map ticked)

/-- The complaint in words. -/
def message : SchemaFault → String
  | .unknownField name known => "unknown field " ++ ticked name ++ ", expected " ++ offer known
  | .missingField name => "missing field " ++ ticked name
  | .repeatedField name => "duplicate field " ++ ticked name
  | .unknownChoice name known =>
    "unknown variant " ++ ticked name ++ ", expected " ++ offer known
  | .malformedName fault => fault.message
  | .malformedVersion fault => fault.message
  | .emptySelection => EmptySelection.message

end SchemaFault

end PlatformWiring
