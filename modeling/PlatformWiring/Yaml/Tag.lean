/-!
# Tags

What the tag of a scalar says about it. A few tags are known by their names, each of them as a
standard tag and as a local one. All others leave a scalar the text that it is.
-/

namespace PlatformWiring.Yaml

/-- What the tag of a scalar says about it. -/
inductive Tag where
  /-- there is no tag -/
  | none
  /-- there is no value, whatever is written -/
  | null
  /-- the scalar stands for bytes, in base 64 -/
  | binary
  /-- the scalar stands for something that is no text -/
  | notText
  /-- only that there is to be no guess, which a bare exclamation mark says -/
  | bare
  /-- nothing that is known here -/
  | other
  deriving DecidableEq, Inhabited, Repr

namespace Tag

/-- The expansion of the handle of the standard tags. -/
def standard : String := "tag:yaml.org,2002:"

/-- The names of tags that are known. -/
def known : List (String × Tag) :=
  [("null", .null), ("binary", .binary), ("int", .notText), ("float", .notText),
   ("bool", .notText), ("seq", .notText), ("map", .notText), ("timestamp", .notText),
   ("time", .notText), ("degrees", .notText), ("radians", .notText)]

/-- A tag in writing, by the expansion of its handle and what follows the handle. -/
def written (handle suffix : String) : String :=
  if handle = "!" then "!" ++ suffix else handle ++ "!" ++ suffix

/-- The ways to write the tag of a name: as a local tag, and as a standard one with its handle
expanded or not. -/
def spellings (name : String) : List String :=
  [written "!" name, written "!" ("!" ++ name), written standard name]

/-- What a tag says, by the expansion of its handle and what follows the handle. -/
def ofParts (handle suffix : String) : Tag :=
  if handle = "" ∧ suffix = "!" then .bare
  else match known.find? fun (name, _) => written handle suffix ∈ spellings name with
    | some (_, tag) => tag
    | .none => .other

end Tag

end PlatformWiring.Yaml
