import PlatformWiring.Platform
import PlatformWiring.Output.Path

/-!
# Source units

A source unit is one generated Java file with one type in it. It is built as data; the
imports and the text follow from it.
-/

namespace PlatformWiring

/-- What a source unit is for. -/
inductive Role where
  /-- the interface with one accessor per actions type -/
  | capabilityProvider
  /-- its implementation on a platform -/
  | platformProvider (p : Platform)
  /-- the module that hands out actions -/
  | actionsModule
  /-- the module that builds steps -/
  | stepsModule
  /-- the component that joins both modules -/
  | component
  /-- an empty implementation of an actions type on a platform -/
  | stub (p : Platform)
  deriving DecidableEq, Inhabited, Repr

/-- The role in words. -/
def Role.describe : Role → String
  | .capabilityProvider => "capability provider"
  | .platformProvider p => p.name ++ " capability provider"
  | .actionsModule => "actions module"
  | .stepsModule => "steps module"
  | .component => "component"
  | .stub p => p.name ++ " stub"

/-- A modifier of a type, a field or a method. -/
inductive Modifier where
  | «public»
  | «private»
  | «abstract»
  | final
  deriving DecidableEq, Inhabited, Repr

namespace Modifier

/-- Every modifier. -/
def all : List Modifier := [.public, .private, .abstract, .final]

/-- The keyword of a modifier. -/
def keyword : Modifier → String
  | .public => "public"
  | .private => "private"
  | .abstract => "abstract"
  | .final => "final"

end Modifier

/-- A member of an annotation, given as a list of class literals. -/
structure AnnotationMember where
  /-- its name -/
  name : String
  /-- the classes -/
  classes : List TypeName
  deriving DecidableEq, Inhabited, Repr

/-- An annotation. -/
structure Annotation where
  /-- its type -/
  type : TypeName
  /-- its members; a marker has none -/
  members : List AnnotationMember
  deriving DecidableEq, Inhabited, Repr

/-- The annotation without members. -/
def Annotation.marker (t : TypeName) : Annotation := ⟨t, []⟩

/-- A field. -/
structure Field where
  /-- its name -/
  name : String
  /-- its type -/
  type : TypeName
  /-- its modifiers, in order -/
  modifiers : List Modifier
  deriving DecidableEq, Inhabited, Repr

/-- A parameter of a method. -/
structure Parameter where
  /-- its name -/
  name : String
  /-- its type -/
  type : TypeName
  deriving DecidableEq, Inhabited, Repr

/-- A statement of a method body. -/
inductive Statement where
  /-- returns a new object -/
  | returnNew (type : TypeName) (arguments : List String)
  /-- returns what a method of the receiver returns -/
  | returnCall (receiver method : String)
  /-- stores a parameter in a field -/
  | assignField (field parameter : String)
  deriving DecidableEq, Inhabited, Repr

/-- A method, or a constructor when it has no result type. -/
structure Method where
  /-- its name -/
  name : String
  /-- its modifiers, in order -/
  modifiers : List Modifier
  /-- its annotations, in order -/
  annotations : List Annotation
  /-- its parameters, in order -/
  parameters : List Parameter
  /-- its result type; a constructor has none -/
  result : Option TypeName
  /-- its body, if it has one -/
  body : Option (List Statement)
  deriving DecidableEq, Inhabited, Repr

namespace Method

/-- The method is a constructor. -/
def isConstructor (m : Method) : Bool := m.result.isNone

/-- A public method without parameters and without a body. -/
def abstractAccessor (t : TypeName) : Method :=
  ⟨t.accessor, [.public, .abstract], [], [], some t, none⟩

end Method

/-- A type of Java, either a class or an interface. -/
inductive UnitKind where
  | «class»
  | interface
  deriving DecidableEq, Inhabited, Repr

/-- A generated Java file with one type. -/
structure SourceUnit where
  /-- what it is for -/
  role : Role
  /-- the type it holds -/
  name : TypeName
  /-- the kind of type -/
  kind : UnitKind
  /-- the modifiers of the type, in order -/
  modifiers : List Modifier
  /-- the annotations of the type, in order -/
  annotations : List Annotation
  /-- the class it extends -/
  superclass : Option TypeName
  /-- the interfaces it lists, in order -/
  interfaces : List TypeName
  /-- the fields, in order -/
  fields : List Field
  /-- the methods, in order -/
  methods : List Method
  deriving DecidableEq, Inhabited, Repr

namespace SourceUnit

/-- A public type with nothing in it. -/
def blank (role : Role) (name : TypeName) (kind : UnitKind) : SourceUnit :=
  ⟨role, name, kind, [.public], [], none, [], [], []⟩

/-- The role and the type in words. -/
def describe (u : SourceUnit) : String := u.role.describe ++ " [" ++ u.name.qualified ++ "]"

/-- Where the file lies below an output root: one directory per segment of the package. -/
def path (u : SourceUnit) : Path :=
  let dir := String.ofList (u.name.package.toList.map fun c => if c = '.' then '/' else c)
  if dir.isEmpty then ⟨u.name.simple ++ ".java"⟩ else ⟨dir ++ "/" ++ u.name.simple ++ ".java"⟩

end SourceUnit

/-! ## Types mentioned in a unit -/

/-- The types of an annotation: its own and those of its class literals. -/
def Annotation.types (a : Annotation) : List TypeName :=
  a.type :: a.members.flatMap (·.classes)

/-- The type that a statement creates. -/
def Statement.types : Statement → List TypeName
  | .returnNew t _ => [t]
  | .returnCall _ _ => []
  | .assignField _ _ => []

/-- The types of a signature and of the body. -/
def Method.types (m : Method) : List TypeName :=
  m.parameters.map (·.type) ++ m.result.toList ++ (m.body.getD []).flatMap (·.types)

/-- Every type that the unit mentions, in the order that decides about imports: annotations of
the type and of its methods, supertypes, fields, then the methods one by one. -/
def SourceUnit.mentioned (u : SourceUnit) : List TypeName :=
  (u.annotations ++ u.methods.flatMap (·.annotations)).flatMap (·.types) ++
    u.superclass.toList ++ u.interfaces ++ u.fields.map (·.type) ++ u.methods.flatMap (·.types)

end PlatformWiring
