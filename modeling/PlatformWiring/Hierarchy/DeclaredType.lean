import PlatformWiring.TypeName

/-!
# Declared types

What a project tells about a type of its own: the kind of type, what it derives from and
which members it declares. Types outside the project are known by name only.
-/

namespace PlatformWiring

/-- The kind of a declared type. -/
inductive TypeKind where
  | «class»
  | abstractClass
  | interface
  deriving DecidableEq, Inhabited, Repr

namespace TypeKind

/-- Every kind. -/
def all : List TypeKind := [.class, .abstractClass, .interface]

/-- The word for the kind. -/
def name : TypeKind → String
  | .class => "class"
  | .abstractClass => "abstract_class"
  | .interface => "interface"

/-- The kind of a word. -/
def ofName? (s : String) : Option TypeKind := all.find? (·.name = s)

end TypeKind

/-- A declared member. -/
structure Member where
  /-- its name -/
  name : String
  /-- it has no body -/
  isAbstract : Bool
  deriving DecidableEq, Inhabited, Repr

/-- A type of the project. -/
structure DeclaredType where
  /-- its name -/
  name : TypeName
  /-- the kind of type -/
  kind : TypeKind
  /-- the class it extends -/
  superclass : Option TypeName
  /-- the interfaces it lists, in order -/
  interfaces : List TypeName
  /-- its members, in order -/
  members : List Member
  deriving DecidableEq, Inhabited, Repr

namespace DeclaredType

/-- Everything the type derives from directly: the superclass, then the interfaces. -/
def supertypes (d : DeclaredType) : List TypeName := d.superclass.toList ++ d.interfaces

/-- The supertype that names what the type is: the superclass, or else the first interface. -/
def mainSupertype (d : DeclaredType) : Option TypeName := d.supertypes.head?

end DeclaredType

/-- The questions that can be asked about the types of a project. The answers may come from a
catalog or from elsewhere, and nothing is assumed about how they fit together. -/
structure TypeLookup where
  /-- the declaration of a type -/
  find? : TypeName → Option DeclaredType
  /-- a value of the first type can stand where the second is asked for -/
  assignable : TypeName → TypeName → Bool
  /-- the members of a type that are left without a body -/
  unimplemented : TypeName → List String

end PlatformWiring
