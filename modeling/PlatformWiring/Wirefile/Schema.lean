import PlatformWiring.Hierarchy.Cycle
import PlatformWiring.Version
import PlatformWiring.Wiring.Layout

/-!
# Wirefiles

A Wirefile describes a project: which platforms it is for, how the generated types are to
be named, which types it declares and what its steps types require. Declaring the contents
of a Wirefile gives the catalog of the project.
-/

namespace PlatformWiring

/-- A member as a Wirefile declares it. -/
structure MemberEntry where
  /-- its name -/
  name : String
  /-- whether it has no body, if the Wirefile says so -/
  isAbstract? : Option Bool
  deriving DecidableEq, Inhabited, Repr

/-- A type as a Wirefile declares it. -/
structure TypeEntry where
  /-- its name -/
  name : TypeName
  /-- the kind of type -/
  kind : TypeKind
  /-- the class it extends -/
  superclass : Option TypeName
  /-- the interfaces it lists, in order -/
  interfaces : List TypeName
  /-- its members, in order -/
  members : List MemberEntry
  deriving DecidableEq, Inhabited, Repr

/-- The description of a project. -/
structure Wirefile where
  /-- the version of the format -/
  version : Version
  /-- the platforms, if the Wirefile selects any -/
  platforms : Option Selection
  /-- the names of the generated types -/
  layout : Layout
  /-- the declared types, in order -/
  types : List TypeEntry
  /-- the constructors of the steps types, in order -/
  steps : List StepsSignature
  deriving DecidableEq, Inhabited, Repr

/-- The member of a type of the given kind. Members of an interface have no body unless the
Wirefile says otherwise, members of a class have one. -/
def MemberEntry.resolve (kind : TypeKind) (m : MemberEntry) : Member :=
  ⟨m.name, m.isAbstract?.getD (decide (kind = .interface))⟩

/-- The declared type of an entry. -/
def TypeEntry.resolve (t : TypeEntry) : DeclaredType :=
  ⟨t.name, t.kind, t.superclass, t.interfaces, t.members.map (·.resolve t.kind)⟩

/-- Why a Wirefile gives no catalog. -/
inductive CatalogError where
  /-- a type is declared twice -/
  | duplicate (e : DuplicateType)
  /-- the types derive from each other in a circle -/
  | cycle (e : InheritanceCycle)
  deriving DecidableEq, Repr

/-- The complaint in words. -/
def CatalogError.message : CatalogError → String
  | .duplicate e => e.message
  | .cycle e => e.message

namespace Wirefile

/-- The catalog of a Wirefile: every type, then every constructor, without circles. -/
def catalog (w : Wirefile) : Except CatalogError Catalog :=
  match Catalog.empty.insertAll (w.types.map (·.resolve)) with
  | .error e => .error (.duplicate e)
  | .ok typed =>
    let c := w.steps.foldl Catalog.declare typed
    match c.checkAcyclic with
    | .error e => .error (.cycle e)
    | .ok () => .ok c

/-- The platforms of a Wirefile; one that selects none is for every platform. -/
def selection (w : Wirefile) : Selection := w.platforms.getD .all

end Wirefile

end PlatformWiring
