import PlatformWiring.Hierarchy.DeclaredType
import PlatformWiring.Report
import PlatformWiring.Source.Unit

/-!
# Platform coverage

Every required actions type needs an implementation on every selected platform. A missing
implementation is replaced by an empty stub when the base type leaves no member without a
body, and that is a warning; otherwise it is an error, and so is an implementation that
does not derive from its base.
-/

namespace PlatformWiring

/-- A request for an empty implementation. -/
structure StubRequest where
  /-- the platform -/
  platform : Platform
  /-- the type to make -/
  stub : TypeName
  /-- the actions type it derives from -/
  base : TypeName
  /-- the base is an interface, so it is implemented and not extended -/
  baseIsInterface : Bool
  deriving DecidableEq, Inhabited, Repr

/-- The unit of a stub. -/
def StubRequest.unit (r : StubRequest) : SourceUnit :=
  let blank := SourceUnit.blank (.stub r.platform) r.stub .class
  if r.baseIsInterface then { blank with interfaces := [r.base] }
  else { blank with superclass := some r.base }

/-- What is wrong with the implementation of a base type. -/
inductive Finding where
  /-- it is missing and will be a stub -/
  | missing (expected base : TypeName)
  /-- it is missing and cannot be a stub, for this member has no body -/
  | unimplemented (expected base : TypeName) (member : String)
  /-- it does not derive from the base; its main supertype is given -/
  | mismatch (found expected : TypeName) (actual : Option TypeName)
  deriving DecidableEq, Inhabited, Repr

/-- A finding on a platform. -/
structure Issue where
  /-- the platform -/
  platform : Platform
  /-- what is wrong -/
  finding : Finding
  deriving DecidableEq, Inhabited, Repr

namespace Finding

/-- The implementation that the finding is about. -/
def target : Finding → TypeName
  | .missing expected _ => expected
  | .unimplemented expected _ _ => expected
  | .mismatch found _ _ => found

/-- How serious the finding is. -/
def severity : Finding → Severity
  | .missing _ _ => .warning
  | .unimplemented _ _ _ => .error
  | .mismatch _ _ _ => .error

/-- The finding in words. -/
def message : Finding → String
  | .missing expected base =>
    "class [" ++ expected.qualified ++ "] was not found; generating an empty stub subtype of [" ++
      base.qualified ++ "]"
  | .unimplemented expected base member =>
    "class [" ++ expected.qualified ++ "] was not found and cannot be stubbed: [" ++
      base.qualified ++ "] leaves abstract member [" ++ member ++ "] unimplemented"
  | .mismatch found expected actual =>
    "class [" ++ found.qualified ++ "] should extend [" ++ expected.qualified ++ "], but [" ++
      (actual.map (·.qualified)).getD "no supertype" ++ "] found instead"

/-- The stable identifier of the finding. -/
def code : Finding → String
  | .missing _ _ => "stepwire::validate::missing_implementation"
  | .unimplemented _ _ _ => "stepwire::validate::unimplemented_abstract_member"
  | .mismatch _ _ _ => "stepwire::validate::supertype_mismatch"

/-- What to do about it. -/
def help? : Finding → Option String
  | .missing expected _ =>
    some ("declare " ++ expected.qualified ++ " to replace the generated stub")
  | .unimplemented expected base member =>
    some ("implement " ++ expected.qualified ++ " so that it extends " ++ base.qualified ++
      " and overrides " ++ member)
  | .mismatch _ _ _ => none

end Finding

namespace Issue

/-- The implementation that the issue is about. -/
def target (i : Issue) : TypeName := i.finding.target

/-- How serious the issue is. -/
def severity (i : Issue) : Severity := i.finding.severity

/-- The issue in words. -/
def message (i : Issue) : String := i.finding.message

/-- The issue makes the round fail. -/
def isError (i : Issue) : Bool := decide (i.severity = .error)

/-- The report of the issue. -/
def toReport (i : Issue) : Report := ⟨i.severity, i.target.qualified, i.message⟩

end Issue

/-- How a base type fares on a platform. -/
inductive Verdict where
  /-- it is implemented -/
  | implemented (expected base : TypeName)
  /-- a stub will do -/
  | stub (request : StubRequest)
  /-- something is wrong -/
  | invalid (findings : List Finding)
  deriving DecidableEq, Repr

/-- Judges a base type on a platform. -/
def TypeLookup.judge (l : TypeLookup) (base : TypeName) (p : Platform) : Verdict :=
  let expected := base.onPlatform p
  match l.find? expected with
  | some found =>
    if l.assignable expected base then .implemented expected base
    else .invalid [.mismatch expected base found.mainSupertype]
  | none =>
    match l.unimplemented base with
    | [] => .stub
      { platform := p
        stub := expected
        base := base
        baseIsInterface := match l.find? base with
          | some d => decide (d.kind = .interface)
          | none => false }
    | members => .invalid (members.map (.unimplemented expected base))

namespace Verdict

/-- The issues of a verdict on a platform. -/
def issues (p : Platform) : Verdict → List Issue
  | .implemented _ _ => []
  | .stub r => [⟨p, .missing r.stub r.base⟩]
  | .invalid findings => findings.map (Issue.mk p)

/-- The stub that a verdict asks for. -/
def stub? : Verdict → Option StubRequest
  | .stub r => some r
  | _ => none

/-- The log event of a verdict. -/
def event? : Verdict → Option LogEvent
  | .implemented expected base =>
    some ⟨.debug, "platform implementation found",
      [("expected", .text expected.qualified), ("base", .text base.qualified)]⟩
  | _ => none

end Verdict

/-- The coverage of a list of actions types on the selected platforms. -/
structure Coverage where
  /-- the verdict on each base type and platform, in order -/
  verdicts : List (Platform × Verdict)
  deriving Repr

namespace Coverage

/-- Judges every base type on every selected platform, in the order of the list. -/
def check (l : TypeLookup) (platforms : Selection) (actions : List TypeName) : Coverage :=
  ⟨actions.flatMap fun base => platforms.toList.map fun p => (p, l.judge base p)⟩

/-- The issues, in order. -/
def issues (c : Coverage) : List Issue := c.verdicts.flatMap fun (p, v) => v.issues p

/-- The stubs asked for, in order. -/
def stubs (c : Coverage) : List StubRequest := c.verdicts.filterMap fun (_, v) => v.stub?

/-- The log events, in order. -/
def events (c : Coverage) : List LogEvent := c.verdicts.filterMap fun (_, v) => v.event?

/-- The issues that are errors. -/
def errors (c : Coverage) : List Issue := c.issues.filter (·.isError)

/-- The issues that are warnings. -/
def warnings (c : Coverage) : List Issue := c.issues.filter fun i => !i.isError

/-- Some issue is an error. -/
def hasErrors (c : Coverage) : Bool := c.issues.any (·.isError)

end Coverage

end PlatformWiring
