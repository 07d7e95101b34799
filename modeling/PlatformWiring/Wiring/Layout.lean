import PlatformWiring.Requirements
import PlatformWiring.Source.Unit

/-!
# The wiring of a project

The layout names the types that are generated. From it and from sorted lists of actions
types and steps constructors the units of the wiring are built: an interface that hands out
actions, its implementation on each platform, a module that hands out actions through an
injected implementation, a module that builds steps from actions, and the component that
joins both modules.
-/

namespace PlatformWiring

/-- The names of the generated types and of the annotations they carry. -/
structure Layout where
  /-- the interface that hands out actions -/
  provider : TypeName
  /-- the module that hands out actions -/
  actionsModule : TypeName
  /-- the module that builds steps -/
  stepsModule : TypeName
  /-- the component that joins both modules -/
  component : TypeName
  /-- the annotation of modules -/
  moduleAnnotation : TypeName
  /-- the annotation of methods that provide a value -/
  providesAnnotation : TypeName
  /-- the annotation of components -/
  componentAnnotation : TypeName
  deriving DecidableEq, Repr

namespace Layout

/-- The layout of a project that names nothing itself. -/
def standard : Layout where
  provider := ⟨"actions.definitions", "ActionsDefinition"⟩
  actionsModule := ⟨"dagger", "ActionsModule"⟩
  stepsModule := ⟨"dagger", "StepsModule"⟩
  component := ⟨"dagger", "StepsComponent"⟩
  moduleAnnotation := ⟨"dagger", "Module"⟩
  providesAnnotation := ⟨"dagger", "Provides"⟩
  componentAnnotation := ⟨"dagger", "Component"⟩

instance : Inhabited Layout := ⟨standard⟩

/-- The annotation of methods that implement an inherited one. -/
def overrides : Annotation := .marker ⟨"java.lang", "Override"⟩

/-- The annotation of methods that provide a value. -/
def provides (l : Layout) : Annotation := .marker l.providesAnnotation

/-- The interface with one accessor per actions type. -/
def capabilityProvider (l : Layout) (actions : List TypeName) : SourceUnit :=
  { SourceUnit.blank .capabilityProvider l.provider .interface with
    methods := actions.map Method.abstractAccessor }

/-- The accessor of a platform provider: it returns a new platform implementation. -/
def platformAccessor (p : Platform) (action : TypeName) : Method :=
  ⟨action.accessor, [.public], [overrides], [], some action,
    some [.returnNew (action.onPlatform p) []]⟩

/-- The implementation of the provider on a platform. -/
def platformProvider (l : Layout) (actions : List TypeName) (p : Platform) : SourceUnit :=
  { SourceUnit.blank (.platformProvider p) (l.provider.onPlatform p) .class with
    interfaces := [l.provider]
    methods := actions.map (platformAccessor p) }

/-- The name of the module's field and of its constructor parameter. -/
def delegate (l : Layout) : String := l.provider.accessor

/-- The constructor of the actions module: it stores the provider. -/
def actionsConstructor (l : Layout) : Method :=
  ⟨l.actionsModule.simple, [.public], [], [⟨l.delegate, l.provider⟩], none,
    some [.assignField l.delegate l.delegate]⟩

/-- The accessor of the actions module: it asks the stored provider. -/
def delegatingAccessor (l : Layout) (action : TypeName) : Method :=
  ⟨action.accessor, [.public], [overrides, l.provides], [], some action,
    some [.returnCall l.delegate action.accessor]⟩

/-- The module that hands out actions through an injected provider. -/
def actionsUnit (l : Layout) (actions : List TypeName) : SourceUnit :=
  { SourceUnit.blank .actionsModule l.actionsModule .class with
    annotations := [.marker l.moduleAnnotation]
    interfaces := [l.provider]
    fields := [⟨l.delegate, l.provider, [.private, .final]⟩]
    methods := l.actionsConstructor :: actions.map l.delegatingAccessor }

/-- The method that builds a steps object from the actions it requires. -/
def stepsBuilder (l : Layout) (steps : TypeName) (actions : List TypeName) : Method :=
  ⟨steps.accessor, [.public], [l.provides], actions.map fun a => ⟨a.accessor, a⟩, some steps,
    some [.returnNew steps (actions.map (·.accessor))]⟩

/-- The module that builds steps. -/
def stepsUnit (l : Layout) (signatures : List StepsSignature) : SourceUnit :=
  { SourceUnit.blank .stepsModule l.stepsModule .class with
    annotations := [.marker l.moduleAnnotation]
    methods := signatures.map fun s => l.stepsBuilder s.steps s.actions }

/-- The component that joins both modules and exposes the steps. -/
def componentUnit (l : Layout) (steps : List TypeName) : SourceUnit :=
  { SourceUnit.blank .component l.component .interface with
    annotations :=
      [⟨l.componentAnnotation, [⟨"modules", [l.actionsModule, l.stepsModule]⟩]⟩]
    methods := steps.map Method.abstractAccessor }

end Layout

end PlatformWiring
