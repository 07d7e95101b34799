import PlatformWiring.Text.Lowercase

/-!
# Names of types

A type is known by its package and its simple name. The written form joins the two by a
full stop, and reading splits at the last one, so the simple name of a name that was read
holds no full stop while its package may.

Names are ordered by package first and by simple name second, each by code points.
-/

namespace PlatformWiring

/-- The name of a type: its package and its simple name. -/
structure TypeName where
  /-- the package, such as `com.example.actions` -/
  package : String
  /-- the name inside the package -/
  simple : String
  deriving DecidableEq, Inhabited, Repr

/-- Why a text names no type. -/
inductive NameFault where
  /-- there is no full stop -/
  | noPackage
  /-- nothing stands before the last full stop -/
  | emptyPackage
  /-- nothing stands after the last full stop -/
  | emptySimpleName
  deriving DecidableEq, Repr

/-- The reason in words. -/
def NameFault.reason : NameFault → String
  | .noPackage => "a type must belong to a package"
  | .emptyPackage => "the package is empty"
  | .emptySimpleName => "the simple name is empty"

/-- A text that was read as a type name but names no type. -/
structure MalformedName where
  /-- the text -/
  text : String
  /-- what is wrong with it -/
  fault : NameFault
  deriving DecidableEq, Repr

namespace MalformedName

/-- The complaint in words. -/
def message (e : MalformedName) : String :=
  "malformed type name '" ++ e.text ++ "': " ++ e.fault.reason

/-- The stable identifier of the complaint. -/
def code : String := "stepwire::type_ref::malformed_name"

/-- What to do about it. -/
def help : String :=
  "use a fully-qualified name such as 'com.example.actions.NavigationActions'"

end MalformedName

namespace TypeName

/-! ## Reading and writing -/

/-- The parts before and after the last full stop. -/
def splitAtLastStop : List Char → Option (List Char × List Char)
  | [] => none
  | c :: cs =>
    match splitAtLastStop cs with
    | some (before, after) => some (c :: before, after)
    | none => if c = '.' then some ([], cs) else none

/-- Reads a qualified name. -/
def read (s : String) : Except MalformedName TypeName :=
  match splitAtLastStop s.toList with
  | none => .error ⟨s, .noPackage⟩
  | some ([], _) => .error ⟨s, .emptyPackage⟩
  | some (_, []) => .error ⟨s, .emptySimpleName⟩
  | some (package, simple) => .ok ⟨String.ofList package, String.ofList simple⟩

/-- The qualified name: package, full stop, simple name. -/
def qualified (t : TypeName) : String := t.package ++ "." ++ t.simple

instance : ToString TypeName := ⟨qualified⟩

/-! ## Derived names -/

/-- The type of the same package whose simple name has `tag` in front. -/
def tagged (tag : String) (t : TypeName) : TypeName := { t with simple := tag ++ t.simple }

/-- The name of the member that hands out a value of the type. -/
def accessor (t : TypeName) : String := Text.decapitalize t.simple

/-! ## Order -/

/-- `a` comes before `b` or is equal to it. -/
def le (a b : TypeName) : Bool :=
  decide (a.package < b.package) || (a.package == b.package && decide (a.simple ≤ b.simple))

/-- The names in order; equal names keep their places. -/
def sort (ts : List TypeName) : List TypeName := ts.mergeSort le

/-- Each name once, in order. -/
def sortDistinct (ts : List TypeName) : List TypeName := sort ts.eraseDups

end TypeName

end PlatformWiring
