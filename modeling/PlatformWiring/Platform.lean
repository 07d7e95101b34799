import PlatformWiring.TypeName

/-!
# Platforms

Wiring is generated for up to two platforms. The implementation of a type on a platform
is the type of the same package whose simple name carries the platform's tag, and a
selection always lists its platforms in the fixed order.
-/

namespace PlatformWiring

/-- A platform that implementations are written for. -/
inductive Platform where
  | ios
  | droid
  deriving DecidableEq, Inhabited, Repr

namespace Platform

/-- Every platform, in the fixed order. -/
def all : List Platform := [.ios, .droid]

/-- The name used in documents and on the command line. -/
def name : Platform → String
  | .ios => "ios"
  | .droid => "droid"

/-- The tag that an implementation carries before its simple name. -/
def tag : Platform → String
  | .ios => "IOS"
  | .droid => "Droid"

/-- The platform of a name. -/
def ofName? (s : String) : Option Platform := all.find? (·.name = s)

end Platform

/-- The name that the implementation of `t` has on a platform. -/
def TypeName.onPlatform (t : TypeName) (p : Platform) : TypeName := t.tagged p.tag

/-- A selection of platforms. -/
structure Selection where
  /-- iOS is selected -/
  ios : Bool
  /-- Droid is selected -/
  droid : Bool
  deriving DecidableEq, Inhabited, Repr

namespace Selection

/-- The platform is selected. -/
def Contains (s : Selection) : Platform → Bool
  | .ios => s.ios
  | .droid => s.droid

/-- The selected platforms, in the fixed order. -/
def toList (s : Selection) : List Platform := Platform.all.filter (s.Contains ·)

/-- The selection of the listed platforms. -/
def ofList (ps : List Platform) : Selection :=
  ⟨decide (Platform.ios ∈ ps), decide (Platform.droid ∈ ps)⟩

/-- Every platform. -/
def all : Selection := ⟨true, true⟩

/-- No platform is selected. -/
def isEmpty (s : Selection) : Bool := s.toList.isEmpty

/-- The number of selected platforms. -/
def size (s : Selection) : Nat := s.toList.length

/-- A listed platform is selected. -/
theorem contains_ofList (ps : List Platform) (p : Platform) :
    (ofList ps).Contains p = decide (p ∈ ps) := by
  cases p <;> rfl

/-- A selection is the selection of its own platforms. -/
theorem ofList_toList (s : Selection) : ofList s.toList = s := by
  obtain ⟨i, d⟩ := s
  cases i <;> cases d <;> decide

end Selection

/-- A selection that was required to hold a platform and holds none. -/
structure EmptySelection where
  deriving DecidableEq, Repr

namespace EmptySelection

/-- The complaint in words. -/
def message : String := "platform selection is empty"

/-- The stable identifier of the complaint. -/
def code : String := "stepwire::platform::empty_selection"

/-- What to do about it. -/
def help : String :=
  "list at least one of ios and droid, or omit the selection to use every platform"

end EmptySelection

end PlatformWiring
