import PlatformWiring.CommandLine.Execution
import PlatformWiring.Proofs.Output.Incremental
import PlatformWiring.Proofs.Round
import PlatformWiring.Proofs.Wiring.Ambiguity

/-!
# Rounds that stop early

A round stops early in two cases: no platform is selected, or the names derived from the types
of some scope are ambiguous. Whatever the sink, it has been handed nothing by then and nothing
has been reported. Since a session is only ended after a round that ran to its end, generating
sources below a directory that is there leaves the file tree as it was, even where the record
lists sources that the round would not have generated.
-/

namespace PlatformWiring

universe u

namespace Round

variable {σ : Type u}

/-- The round stops early: there is no platform, or there are steps types and names are
ambiguous. -/
def StopsEarly (config : RoundConfig) (r : Requirements) : Prop :=
  config.platforms.isEmpty = true ∨
    config.platforms.isEmpty = false ∧ r.isEmpty = false ∧ r.Ambiguous

/-- Why the round stopped early, if it did, and that it has done nothing until then. -/
structure StopsCleanly (config : RoundConfig) (r : Requirements) (s : σ) (result : RoundResult σ) :
    Prop where
  /-- it stops early in the two cases only -/
  stops : (∃ e, result.outcome = .error e) ↔ StopsEarly config r
  /-- it complains about the platforms if there is none -/
  noPlatforms : result.outcome = .error .noPlatforms ↔ config.platforms.isEmpty = true
  /-- and about names in the other case -/
  collisions : (∃ found, result.outcome = .error (.plan (.collisions found))) ↔
    config.platforms.isEmpty = false ∧ r.isEmpty = false ∧ r.Ambiguous
  /-- it knows all steps types -/
  known : ∀ e, result.outcome ≠ .error (.plan (.unknownSteps e))
  /-- the sink is as it was -/
  state : ∀ e, result.outcome = .error e → result.state = s
  /-- nothing was reported -/
  reports : ∀ e, result.outcome = .error e → result.signals.filterMap (·.report?) = []

/-- A round stops cleanly. By the cases of a run there are only two ways to stop, and both come
before the first write. Names are ambiguous exactly if the plan fails, and as the plan reads the
steps types of the same requirements, it knows each of them. -/
theorem run_stopsCleanly (l : TypeLookup) (k : Sink σ) (s : σ) (config : RoundConfig)
    (signatures : List StepsSignature) :
    StopsCleanly config (Requirements.ofSignatures signatures) s
      (run l k s config signatures) := by
  rcases run_cases l k s config signatures with ⟨hp, h⟩ | ⟨hp, hr, h⟩ | ⟨hp, hr, e, he, h⟩ |
    ⟨hp, hr, units, hunits, h⟩
  · rw [h]
    constructor <;> simp [StopsEarly, hp]
  · rw [h]
    constructor <;> simp [StopsEarly, hp, hr]
  · obtain ⟨found, rfl⟩ := Layout.exists_collisions_of_plan he
    have hambiguous := Layout.exists_plan_error_iff.1 ⟨_, he⟩
    rw [h]
    constructor <;> simp [StopsEarly, hp, hr, hambiguous, Signal.report?]
  · have hclear : ¬(Requirements.ofSignatures signatures).Ambiguous := by
      rw [← @Layout.exists_plan_error_iff config.layout config.platforms, hunits]
      simp
    rw [h]
    constructor <;> simp [emit, StopsEarly, hp, hr, hclear]

end Round

/-! ## Generating

Generating makes the root if it is not there, opens a session, runs a round in it and finishes the
session, in this order. If the round stops early the session is dropped without being finished, and
opening it has changed nothing below a root that was there. -/

namespace CommandLine.Project

/-- Below a root that is there, a round that stops early leaves the tree as it is. If the record
cannot be read the round does not even begin. -/
theorem generate_of_stopsEarly {project : Project} {here base : Location} {t : Tree}
    {directory : Path} (disk : Disk)
    (hroot : t.locateDirectory (.working here) directory = .ok base)
    (hstops : Round.StopsEarly project.config project.catalog.requirements) :
    ∃ failure events, project.generate disk here t directory = ⟨t, some failure, "", events⟩ ∧
      ((∃ fault, failure = .opening directory fault) ∨ ∃ e, failure = .aborted e) := by
  rcases hload : Session.loadRecord t base with fault | record
  · refine ⟨.opening directory fault, [], ?_, Or.inl ⟨fault, rfl⟩⟩
    rw [generate, Session.start_of_locateDirectory hroot, hload]
    rfl
  · have hclean := Round.run_stopsCleanly project.catalog.lookup (Session.sink disk)
      (Session.fresh directory base record, t) project.config project.catalog.signatures
    obtain ⟨e, he⟩ := hclean.stops.2 hstops
    obtain ⟨events, hround⟩ : ∃ events, project.round (Session.sink disk)
        (Session.fresh directory base record, t) =
          ((Session.fresh directory base record, t), .error e, events) :=
      ⟨_, Prod.ext (hclean.state e he) (Prod.ext he rfl)⟩
    refine ⟨.aborted e, events, ?_, Or.inr ⟨e, rfl⟩⟩
    rw [generate, Session.start_of_locateDirectory hroot, hload]
    simp only [Except.map, hround]

/-- **A round that stops early changes nothing.** It stops early exactly if no platform is selected
or names are ambiguous, and then its sink is as before and nothing was reported. So generating
sources below a root that is there changes no file, the record included. -/
theorem stopping_changes_nothing :
    (∀ {σ : Type u} (l : TypeLookup) (k : Sink σ) (s : σ) (config : RoundConfig)
      (signatures : List StepsSignature), Round.StopsCleanly config (.ofSignatures signatures) s
        (Round.run l k s config signatures)) ∧
    ∀ (project : Project) (disk : Disk) (here base : Location) (t : Tree) (directory : Path),
      t.locateDirectory (.working here) directory = .ok base →
      Round.StopsEarly project.config project.catalog.requirements →
      ∃ failure events, project.generate disk here t directory = ⟨t, some failure, "", events⟩ ∧
        ((∃ fault, failure = .opening directory fault) ∨ ∃ e, failure = .aborted e) :=
  ⟨Round.run_stopsCleanly, fun _ disk _ _ _ _ hroot hstops =>
    generate_of_stopsEarly disk hroot hstops⟩

/-- A project whose only constructor takes the same type twice. -/
def twice : Project where
  catalog :=
    { types := []
      signatures := [⟨⟨"s", "PaySteps"⟩, [⟨"a", "PayActions"⟩, ⟨"a", "PayActions"⟩]⟩]
      nodup_names := List.nodup_nil }
  config := ⟨.all, .standard⟩

/-- A root with a source that the project would not generate. -/
def rootOfOld : Tree :=
  .entry "out" (.directory
    (.entry ".stepwire-sources" (.file "0 a/Old.java\n".toUTF8)
      (.entry "a" (.directory (.entry "Old.java" (.file "class Old".toUTF8) .empty)) .empty)))
    .empty

/-- The old source stays where it is. -/
theorem twice_changes_nothing :
    Round.StopsEarly twice.config twice.catalog.requirements ∧
      (Round.run twice.catalog.lookup (Sink.memory fun _ => none) [] twice.config
        twice.catalog.signatures).state = [] ∧
      ∃ failure events, twice.generate .sound [] rootOfOld ⟨"out"⟩ =
        ⟨rootOfOld, some failure, "", events⟩ := by
  have hstops : Round.StopsEarly twice.config twice.catalog.requirements :=
    Or.inr ⟨rfl, rfl, @Requirements.Ambiguous.parameters _ ⟨"s", "PaySteps"⟩ _ rfl (by decide)⟩
  obtain ⟨hround, hgenerate⟩ := stopping_changes_nothing.{0}
  have hclean := hround twice.catalog.lookup (Sink.memory fun _ => none) [] twice.config
    twice.catalog.signatures
  obtain ⟨e, he⟩ := hclean.stops.2 hstops
  obtain ⟨failure, events, h, -⟩ :=
    hgenerate twice .sound [] ["out"] rootOfOld ⟨"out"⟩ (by decide +kernel) hstops
  exact ⟨hstops, hclean.state e he, failure, events, h⟩

end CommandLine.Project

end PlatformWiring
