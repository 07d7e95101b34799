import PlatformWiring.Document.Value
import PlatformWiring.Wirefile.Decode

/-!
# Wirefiles as plain values

Every part of a Wirefile has a plain value from which it is read back. The value spells out
what a document may leave to its defaults; only a member that does not say whether it has a
body stays silent about it.
-/

namespace PlatformWiring

/-- The value of a type name. -/
def TypeName.encode (t : TypeName) : Value := .text t.qualified

/-- The value of something that may be absent. -/
def Value.ofOption {α : Type} (encode : α → Value) : Option α → Value
  | none => .null
  | some a => encode a

/-- The value of a list. -/
def Value.ofList {α : Type} (encode : α → Value) (as : List α) : Value := .list (as.map encode)

/-- The value of a selection: the list of its platforms. -/
def Selection.encode (s : Selection) : Value := .ofList (fun p => .text p.name) s.toList

/-- The value of a member. -/
def MemberEntry.encode (m : MemberEntry) : Value :=
  .record (("name", .text m.name) :: m.isAbstract?.toList.map fun b => ("abstract", .bool b))

/-- The value of a type. -/
def TypeEntry.encode (t : TypeEntry) : Value :=
  .record
    [("name", t.name.encode), ("kind", .text t.kind.name),
     ("extends", .ofOption TypeName.encode t.superclass),
     ("implements", .ofList TypeName.encode t.interfaces),
     ("members", .ofList MemberEntry.encode t.members)]

/-- The value of a constructor. -/
def StepsSignature.encode (s : StepsSignature) : Value :=
  .record [("name", s.steps.encode), ("requires", .ofList TypeName.encode s.actions)]

/-- The value of a layout. -/
def Layout.encode (l : Layout) : Value :=
  .record
    [("provider", l.provider.encode), ("actions_module", l.actionsModule.encode),
     ("steps_module", l.stepsModule.encode), ("component", l.component.encode),
     ("module_annotation", l.moduleAnnotation.encode),
     ("provides_annotation", l.providesAnnotation.encode),
     ("component_annotation", l.componentAnnotation.encode)]

/-- The value of a Wirefile. -/
def Wirefile.encode (w : Wirefile) : Value :=
  .record
    [("wire_version", .text w.version.write),
     ("platforms", .ofOption Selection.encode w.platforms),
     ("layout", w.layout.encode),
     ("types", .ofList TypeEntry.encode w.types),
     ("steps", .ofList StepsSignature.encode w.steps)]

end PlatformWiring
