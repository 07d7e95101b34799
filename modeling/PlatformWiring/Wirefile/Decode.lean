import PlatformWiring.Document.Format
import PlatformWiring.Wirefile.Schema

/-!
# Reading Wirefiles

The schema of Wirefiles, read from any document format. Only the names and the version of
the format have to be given.
-/

namespace PlatformWiring

variable {ν ε : Type}

namespace Format

/-- The name of a type. -/
def typeName (f : Format ν ε) (v : ν) : Except ε TypeName :=
  match f.text "a string" v with
  | .error fault => .error fault
  | .ok s =>
    match TypeName.read s with
    | .error fault => .error (f.violates (.malformedName fault))
    | .ok t => .ok t

/-- A version. -/
def version (f : Format ν ε) (v : ν) : Except ε Version :=
  match f.text "semver version" v with
  | .error fault => .error fault
  | .ok s =>
    match Version.read s with
    | .error fault => .error (f.violates (.malformedVersion fault))
    | .ok version => .ok version

/-- A platform. -/
def platform (f : Format ν ε) : ν → Except ε Platform :=
  f.oneOf "Platform" Platform.name Platform.all

/-- A selection of platforms, given as a list that may repeat platforms but names one. -/
def selection (f : Format ν ε) (v : ν) : Except ε Selection :=
  match f.list f.platform v with
  | .error fault => .error fault
  | .ok [] => .error (f.violates .emptySelection)
  | .ok ps => .ok (Selection.ofList ps)

/-- The kind of a type. -/
def typeKind (f : Format ν ε) : ν → Except ε TypeKind :=
  f.oneOf "TypeKind" TypeKind.name TypeKind.all

/-- A member. -/
def member (f : Format ν ε) : ν → Except ε MemberEntry :=
  f.record "MemberDecl"
    [⟨"name", true, fun m v => (f.text "a string" v).map fun s => { m with name := s }⟩,
     ⟨"abstract", false, fun m v =>
      (f.optional f.flag v).map fun b => { m with isAbstract? := b }⟩]
    ⟨"", none⟩

/-- A type. -/
def typeEntry (f : Format ν ε) : ν → Except ε TypeEntry :=
  f.record "TypeDecl"
    [⟨"name", true, fun t v => (f.typeName v).map fun n => { t with name := n }⟩,
     ⟨"kind", false, fun t v => (f.typeKind v).map fun k => { t with kind := k }⟩,
     ⟨"extends", false, fun t v =>
      (f.optional f.typeName v).map fun s => { t with superclass := s }⟩,
     ⟨"implements", false, fun t v =>
      (f.list f.typeName v).map fun is => { t with interfaces := is }⟩,
     ⟨"members", false, fun t v => (f.list f.member v).map fun ms => { t with members := ms }⟩]
    ⟨⟨"", ""⟩, .class, none, [], []⟩

/-- The constructor of a steps type. -/
def stepsSignature (f : Format ν ε) : ν → Except ε StepsSignature :=
  f.record "StepsDecl"
    [⟨"name", true, fun s v => (f.typeName v).map fun n => { s with steps := n }⟩,
     ⟨"requires", false, fun s v =>
      (f.list f.typeName v).map fun ts => { s with actions := ts }⟩]
    ⟨⟨"", ""⟩, []⟩

/-- A layout. -/
def layout (f : Format ν ε) : ν → Except ε Layout :=
  f.record "WiringLayout"
    [⟨"provider", false, fun l v => (f.typeName v).map fun t => { l with provider := t }⟩,
     ⟨"actions_module", false, fun l v =>
      (f.typeName v).map fun t => { l with actionsModule := t }⟩,
     ⟨"steps_module", false, fun l v =>
      (f.typeName v).map fun t => { l with stepsModule := t }⟩,
     ⟨"component", false, fun l v => (f.typeName v).map fun t => { l with component := t }⟩,
     ⟨"module_annotation", false, fun l v =>
      (f.typeName v).map fun t => { l with moduleAnnotation := t }⟩,
     ⟨"provides_annotation", false, fun l v =>
      (f.typeName v).map fun t => { l with providesAnnotation := t }⟩,
     ⟨"component_annotation", false, fun l v =>
      (f.typeName v).map fun t => { l with componentAnnotation := t }⟩]
    .standard

/-- A Wirefile. -/
def wirefile (f : Format ν ε) : ν → Except ε Wirefile :=
  f.record "Wirefile"
    [⟨"wire_version", true, fun w v => (f.version v).map fun n => { w with version := n }⟩,
     ⟨"platforms", false, fun w v =>
      (f.optional f.selection v).map fun ps => { w with platforms := ps }⟩,
     ⟨"layout", false, fun w v => (f.layout v).map fun l => { w with layout := l }⟩,
     ⟨"types", false, fun w v => (f.list f.typeEntry v).map fun ts => { w with types := ts }⟩,
     ⟨"steps", false, fun w v =>
      (f.list f.stepsSignature v).map fun ss => { w with steps := ss }⟩]
    ⟨⟨0, 0, 0, "", ""⟩, none, .standard, [], []⟩

end Format

end PlatformWiring
