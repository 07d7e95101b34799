import PlatformWiring.Proofs.Coverage
import PlatformWiring.Proofs.Output.Sink
import PlatformWiring.Proofs.Wiring.Coherence
import PlatformWiring.Round

/-!
# What becomes of the units of a round

A round hands every stub that the coverage check asks for and every planned unit to its sink,
whatever the sink does with them, and its outcome and its reports account for each of them.
After a round without an error no accessor of a platform provider makes an object of a type
that is not there, and no stub is left without an accessor that needs it.

The trace of a round, which a traced sink keeps, is what the sink was handed.
-/

namespace PlatformWiring

universe u v

namespace Round

variable {σ : Type u} {l : TypeLookup} {k : Sink σ} {s : σ} {config : RoundConfig}

/-! ## Traces of rounds

The trace is read off a run with the traced sink, so the first thing to know is that tracing changes
nothing else: the same state, outcome and signals. After that a round need not be unfolded again.
What it does is one of four cases, and if it goes on to the end, its trace is that of two runs of
writes, first the stubs and then the plan. -/

/-- What a round hands to the sink, in order, and how it went. -/
def trace (l : TypeLookup) (k : Sink σ) (s : σ) (config : RoundConfig)
    (signatures : List StepsSignature) : List Attempt :=
  (run l k.traced (s, []) config signatures).state.2

/-- The attempts to write the stubs. -/
def stubAttempts (l : TypeLookup) (k : Sink σ) (s : σ) (config : RoundConfig)
    (r : Requirements) : WrittenAll σ :=
  k.writeAll s ((Coverage.check l config.platforms r.sortedActions).stubs.map (·.unit))

/-- The attempts to write the planned units. -/
def wiringAttempts (l : TypeLookup) (k : Sink σ) (s : σ) (config : RoundConfig)
    (r : Requirements) (units : List SourceUnit) : WrittenAll σ :=
  k.writeAll (stubAttempts l k s config r).state units

/-- Keeping a trace changes nothing else about the end of a round. -/
theorem emit_traced (l : TypeLookup) (k : Sink σ) (s : σ) (before : List Attempt)
    (config : RoundConfig) (r : Requirements) (units : List SourceUnit) :
    emit l k.traced (s, before) config r units =
      { state := ((emit l k s config r units).state, before ++
          (stubAttempts l k s config r).attempts ++
          (wiringAttempts l k s config r units).attempts)
        outcome := (emit l k s config r units).outcome
        signals := (emit l k s config r units).signals } := by
  simp only [emit, Sink.writeAll_traced, WrittenAll.failures, WrittenAll.written, stubAttempts,
    wiringAttempts]

/-- Keeping a trace changes nothing else about a round. -/
theorem run_traced (l : TypeLookup) (k : Sink σ) (s : σ) (config : RoundConfig)
    (signatures : List StepsSignature) :
    run l k.traced (s, []) config signatures =
      { state := ((run l k s config signatures).state, trace l k s config signatures)
        outcome := (run l k s config signatures).outcome
        signals := (run l k s config signatures).signals } := by
  simp only [trace, run, runFor]
  split
  · rfl
  · split
    · rfl
    · split
      · rfl
      · rw [emit_traced]

/-- What a round does: it stops early for one of two reasons, it has nothing to do, or it goes on to
the end. -/
theorem run_cases (l : TypeLookup) (k : Sink σ) (s : σ) (config : RoundConfig)
    (signatures : List StepsSignature) :
    (config.platforms.isEmpty = true ∧
      run l k s config signatures = ⟨s, .error .noPlatforms, []⟩) ∨
    (config.platforms.isEmpty = false ∧ (Requirements.ofSignatures signatures).isEmpty = true ∧
      run l k s config signatures = ⟨s, .ok .nothing, [.event idleEvent]⟩) ∨
    (config.platforms.isEmpty = false ∧ (Requirements.ofSignatures signatures).isEmpty = false ∧
      ∃ e, config.layout.plan config.platforms (Requirements.ofSignatures signatures) = .error e ∧
        run l k s config signatures =
          ⟨s, .error (.plan e), [.event (relationEvent (Requirements.ofSignatures signatures))]⟩) ∨
    (config.platforms.isEmpty = false ∧ (Requirements.ofSignatures signatures).isEmpty = false ∧
      ∃ units,
        config.layout.plan config.platforms (Requirements.ofSignatures signatures) = .ok units ∧
        run l k s config signatures =
          emit l k s config (Requirements.ofSignatures signatures) units) := by
  rw [run, runFor]
  cases config.platforms.isEmpty
  · cases (Requirements.ofSignatures signatures).isEmpty
    · rcases config.layout.plan config.platforms (Requirements.ofSignatures signatures) with
        e | units
      · exact Or.inr (Or.inr (Or.inl ⟨rfl, rfl, e, rfl, rfl⟩))
      · exact Or.inr (Or.inr (Or.inr ⟨rfl, rfl, units, rfl, rfl⟩))
    · exact Or.inr (Or.inl ⟨rfl, rfl, rfl⟩)
  · exact Or.inl ⟨rfl, rfl⟩

/-- A round with steps types that runs to its end made a plan, and with any sink it goes on to the
end. -/
theorem run_of_ok {o : Outcome} {signatures : List StepsSignature}
    (hsteps : (Requirements.ofSignatures signatures).isEmpty = false)
    (h : (run l k s config signatures).outcome = .ok o) :
    ∃ units, config.layout.plan config.platforms (Requirements.ofSignatures signatures) =
        .ok units ∧
      ∀ {τ : Type v} (k' : Sink τ) (s' : τ), run l k' s' config signatures =
        emit l k' s' config (Requirements.ofSignatures signatures) units := by
  rw [run, runFor, hsteps] at h
  split at h
  · cases h
  · rename_i hplatforms
    rcases hplan : config.layout.plan config.platforms (Requirements.ofSignatures signatures) with
      e | units
    · rw [hplan] at h
      cases h
    · refine ⟨units, rfl, fun k' s' => ?_⟩
      simp only [run, runFor, hplatforms, hsteps, hplan]
      rfl

/-- A round runs to its end if there is a platform and a plan. -/
theorem exists_outcome {signatures : List StepsSignature}
    (hplatforms : config.platforms.isEmpty = false)
    (hplan : ∃ units, config.layout.plan config.platforms (Requirements.ofSignatures signatures) =
      .ok units) : ∃ o, (run l k s config signatures).outcome = .ok o := by
  obtain ⟨units, hplan⟩ := hplan
  rw [run, runFor, hplatforms, hplan]
  cases (Requirements.ofSignatures signatures).isEmpty
  · exact ⟨_, rfl⟩
  · exact ⟨_, rfl⟩

/-- A round without steps types hands nothing to the sink. -/
theorem trace_of_isEmpty {signatures : List StepsSignature}
    (hsteps : (Requirements.ofSignatures signatures).isEmpty = true) :
    trace l k s config signatures = [] := by
  rw [trace, run, runFor, hsteps]
  split <;> rfl

section trace

variable {signatures : List StepsSignature} {r : Requirements} {units : List SourceUnit}
  (h : run l k.traced (s, []) config signatures = emit l k.traced (s, []) config r units)

include h

/-- The trace of a round that goes on to the end: the attempts at the stubs, then those at the plan.
-/
theorem trace_eq_of_emit : trace l k s config signatures =
    (stubAttempts l k s config r).attempts ++
      (wiringAttempts l k s config r units).attempts := by
  rw [trace, h, emit_traced]
  rfl

/-- So the units in the trace are the stubs and then the plan, whatever the sink answers. -/
theorem units_trace : (trace l k s config signatures).map (·.unit) =
    (Coverage.check l config.platforms r.sortedActions).stubs.map (·.unit) ++ units := by
  rw [trace_eq_of_emit h, List.map_append, stubAttempts, wiringAttempts, Sink.units_writeAll,
    Sink.units_writeAll]

end trace

/-! ## Units apart from sinks

Which units a round hands over depends on the lookup, the configuration and the requirements, and
not on the sink. So two rounds with different sinks can be compared through the list of these units:
the state at the end is what writing the list leaves, and the outcome depends on the sink only
through its answers. -/

section handed

variable {r : Requirements} {units : List SourceUnit}

end handed

section reports

variable (o : Outcome)

/-- The number of reports of issues and failures of a severity. Failures are errors. -/
theorem countReports_outcome (severity : Severity) :
    countReports severity (o.issues.map (·.toReport) ++ o.failures.map (·.toReport)) =
      (o.issues.filter fun i => decide (i.severity = severity)).length +
        if severity = .error then o.failures.length else 0 := by
  rw [countReports, List.filter_append, List.length_append, List.filter_map, List.length_map,
    List.filter_map, List.length_map]
  congr 1
  cases severity
  · rw [if_neg (by decide), List.length_eq_zero_iff, List.filter_eq_nil_iff]
    intro f _
    exact Bool.false_ne_true
  · rw [if_pos rfl, List.filter_eq_self.2]
    intro f _
    rfl

/-- The number of warnings is the number of reports that warn. -/
theorem warningCount_eq : o.warningCount =
    countReports .warning (o.issues.map (·.toReport) ++ o.failures.map (·.toReport)) := by
  have hsame : ∀ i : Issue, (!i.isError) = decide (i.severity = .warning) := fun i => by
    rw [Issue.isError]
    cases i.severity <;> rfl
  simp only [countReports_outcome, Outcome.warningCount, hsame, reduceCtorEq, if_false,
    Nat.add_zero]

/-- The number of errors is the number of reports that are errors, failures among them. -/
theorem errorCount_eq : o.errorCount =
    countReports .error (o.issues.map (·.toReport) ++ o.failures.map (·.toReport)) := by
  rw [countReports_outcome, if_pos rfl]
  rfl

/-- Success means that nothing failed and no issue is an error. -/
theorem isSuccess_iff : o.isSuccess = true ↔
    o.failures = [] ∧ ∀ i ∈ o.issues, ¬i.isError = true := by
  rw [Outcome.isSuccess, Bool.and_eq_true, List.isEmpty_iff, Bool.not_eq_true',
    List.any_eq_false]

/-- Success means that no report is an error. -/
theorem isSuccess_iff_reports : o.isSuccess = true ↔
    ∀ rep ∈ o.issues.map (·.toReport) ++ o.failures.map (·.toReport), rep.severity ≠ .error := by
  rw [isSuccess_iff]
  constructor
  · rintro ⟨hfailures, hissues⟩ rep hrep
    rw [hfailures, List.map_nil, List.append_nil] at hrep
    obtain ⟨i, hi, rfl⟩ := List.mem_map.1 hrep
    exact fun herror => hissues i hi (decide_eq_true herror)
  · intro h
    constructor
    · rw [List.eq_nil_iff_forall_not_mem]
      exact fun f hf => h _ (List.mem_append_right _ (List.mem_map_of_mem hf)) rfl
    · exact fun i hi herror =>
        h _ (List.mem_append_left _ (List.mem_map_of_mem hi)) (of_decide_eq_true herror)

end reports

/-- The outcome and the reports of a round account for the attempts to write the stubs and the
wiring. -/
structure Accounted (l : TypeLookup) (config : RoundConfig) (r : Requirements)
    (stubs wiring : List Attempt) (reports : List Report) (o : Outcome) : Prop where
  /-- the stubs are those the coverage check asks for, in its order -/
  asked : stubs.map (·.unit) =
    (Coverage.check l config.platforms r.sortedActions).stubs.map (·.unit)
  /-- the wiring is the plan, in its order -/
  planned : config.layout.plan config.platforms r = .ok (wiring.map (·.unit))
  /-- the outcome lists the stubs that were written, in order -/
  stubs_written : o.stubs = stubs.filterMap (·.written?)
  /-- and the wiring that was written -/
  wiring_written : o.artifacts = wiring.filterMap (·.written?)
  /-- and what failed, stubs first -/
  failures : o.failures = stubs.filterMap (·.failure?) ++ wiring.filterMap (·.failure?)
  /-- no stub is attempted twice -/
  stubs_nodup : (stubs.map (·.unit.name)).Nodup
  /-- each stub was written or failed -/
  stubs_split : (o.stubs ++ (stubs.filterMap (·.failure?)).map (·.name)).Perm
    (stubs.map (·.unit.name))
  /-- each unit of the wiring was written or failed -/
  wiring_split : (o.artifacts ++ (wiring.filterMap (·.failure?)).map (·.name)).Perm
    (wiring.map (·.unit.name))
  /-- the issues are those of the coverage check -/
  issues : o.issues = (Coverage.check l config.platforms r.sortedActions).issues
  /-- the reports are those of the issues, then those of the failures -/
  reported : reports = o.issues.map (·.toReport) ++ o.failures.map (·.toReport)
  /-- a failure is reported as an error -/
  failures_errors : ∀ f ∈ o.failures, f.toReport.severity = .error
  /-- the warnings are counted -/
  warnings : o.warningCount = countReports .warning reports
  /-- the errors are counted -/
  errors : o.errorCount = countReports .error reports
  /-- success means that no error was reported -/
  success : o.isSuccess = true ↔ ∀ rep ∈ reports, rep.severity ≠ .error

/-- The attempts of both halves are accounted for. The stubs of the coverage check have different
names, so no stub is attempted twice, and the rest follows from what a list of writes answers. -/
theorem emit_accounted {r : Requirements} {units : List SourceUnit} {o : Outcome}
    (hplan : config.layout.plan config.platforms r = .ok units)
    (h : (emit l k s config r units).outcome = .ok o) :
    Accounted l config r (stubAttempts l k s config r).attempts
      (wiringAttempts l k s config r units).attempts
      ((emit l k s config r units).signals.filterMap (·.report?)) o := by
  set stubs := stubAttempts l k s config r with hstubs
  set wiring := wiringAttempts l k s config r units with hwiring
  have hasked : stubs.attempts.map (·.unit) =
      (Coverage.check l config.platforms r.sortedActions).stubs.map (·.unit) :=
    k.units_writeAll s _
  have hunits : wiring.attempts.map (·.unit) = units := k.units_writeAll _ units
  -- the outcome filters the stubs by name, so the names must tell the attempts apart
  have hnames : stubs.attempts.map (·.unit.name) =
      (Coverage.check l config.platforms r.sortedActions).stubs.map (·.stub) := by
    have := congrArg (List.map (·.name)) hasked
    simpa [List.map_map, Function.comp_def, StubRequest.name_unit] using this
  have hnodup : (stubs.attempts.map (·.unit.name)).Nodup := by
    rw [hnames]
    exact Coverage.nodup_stubs_check ((TypeName.perm_sort _).nodup_iff.2 r.nodup_actionsTypes)
  obtain rfl : o =
      { stepsCount := r.size
        issues := (Coverage.check l config.platforms r.sortedActions).issues
        stubs := ((Coverage.check l config.platforms r.sortedActions).stubs.map (·.stub)).filter
          fun stub => !stubs.failures.any fun f => decide (f.name = stub)
        artifacts := wiring.written
        failures := stubs.failures ++ wiring.failures } := (Except.ok.inj h).symm
  have hreports : (emit l k s config r units).signals.filterMap (·.report?) =
      (Coverage.check l config.platforms r.sortedActions).issues.map (·.toReport) ++
        (stubs.failures ++ wiring.failures).map (·.toReport) := by
    simp [emit, Signal.report?, List.filterMap_append, List.filterMap_map, hstubs, hwiring,
      stubAttempts, wiringAttempts]
  rw [hreports]
  constructor
  case asked => exact hasked
  case planned => rw [hunits, hplan]
  case stubs_written =>
    simp only [← hnames]
    exact Attempt.filter_not_failed hnodup
  case wiring_written => rfl
  case failures => rfl
  case stubs_nodup => exact hnodup
  case stubs_split =>
    simp only [← hnames]
    rw [WrittenAll.failures, Attempt.filter_not_failed hnodup]
    exact Attempt.perm_written_failures _
  case wiring_split => exact Attempt.perm_written_failures _
  case issues => rfl
  case reported => rfl
  case failures_errors => exact fun f _ => rfl
  case warnings => exact warningCount_eq _
  case errors => exact errorCount_eq _
  case success => exact isSuccess_iff_reports _

/-- **A round accounts for every unit.** Whatever the sink makes of the units, it is handed the
stubs that the coverage check asks for and then the plan, each unit once and in order, and each is
written or reported as a failure. Another sink is handed the same units, and the issues are the
same. -/
theorem run_accounted {signatures : List StepsSignature} {o : Outcome}
    (hsteps : (Requirements.ofSignatures signatures).isEmpty = false)
    (h : (run l k s config signatures).outcome = .ok o) :
    ∃ stubs wiring, trace l k s config signatures = stubs ++ wiring ∧
      Accounted l config (Requirements.ofSignatures signatures) stubs wiring
        ((run l k s config signatures).signals.filterMap (·.report?)) o ∧
      ∀ {τ : Type v} (k' : Sink τ) (s' : τ), ∃ o',
        (run l k' s' config signatures).outcome = .ok o' ∧ o'.issues = o.issues ∧
        (trace l k' s' config signatures).map (·.unit) =
          (trace l k s config signatures).map (·.unit) := by
  obtain ⟨units, hplan, hrun⟩ := run_of_ok.{u, u} hsteps h
  have htrace := trace_eq_of_emit (hrun k.traced (s, []))
  have haccounted := emit_accounted hplan (hrun k s ▸ h)
  refine ⟨_, _, htrace, hrun k s ▸ haccounted, fun {τ} k' s' => ?_⟩
  -- the plan does not depend on the sink
  obtain ⟨units', hplan', hrun'⟩ := run_of_ok.{u, v} hsteps h
  obtain rfl : units = units' := Except.ok.inj (hplan.symm.trans hplan')
  refine ⟨_, congrArg RoundResult.outcome (hrun' k' s'), haccounted.issues.symm, ?_⟩
  rw [units_trace (hrun' k'.traced (s', [])), units_trace (hrun k.traced (s, []))]

/-- The lookup that knows no type. -/
def nothingKnown : TypeLookup := ⟨fun _ => none, fun _ _ => false, fun _ => []⟩

/-- One steps type that requires one actions type. -/
def payment : List StepsSignature := [⟨⟨"s", "PaySteps"⟩, [⟨"a", "PayActions"⟩]⟩]

/-- One constructor with one type leaves no scope ambiguous, so there is a plan. -/
theorem exists_plan_payment (l : Layout) (platforms : Selection) :
    ∃ units, l.plan platforms (Requirements.ofSignatures payment) = .ok units := by
  refine Layout.exists_plan_iff.2 ⟨by decide, by decide, fun steps actions h => ?_⟩
  have hmem := OrderedMap.mem_values_iff.2 ⟨steps, Requirements.requiredBy_eq_ok_iff.1 h⟩
  clear h
  revert actions
  decide

/-- The sink refuses one of two stubs. -/
theorem payment_accounted : ∃ o,
    (run nothingKnown
      (Sink.memory fun u => if u.role = .stub .ios then some .isADirectory else none) []
      ⟨.all, .standard⟩ payment).outcome = .ok o ∧
    ∃ stubs wiring,
      trace nothingKnown
        (Sink.memory fun u => if u.role = .stub .ios then some .isADirectory else none) []
        ⟨.all, .standard⟩ payment = stubs ++ wiring ∧
      Accounted nothingKnown ⟨.all, .standard⟩ (Requirements.ofSignatures payment) stubs wiring
        ((run nothingKnown
          (Sink.memory fun u => if u.role = .stub .ios then some .isADirectory else none) []
          ⟨.all, .standard⟩ payment).signals.filterMap (·.report?)) o := by
  obtain ⟨o, ho⟩ : ∃ o, (run nothingKnown
      (Sink.memory fun u => if u.role = .stub .ios then some .isADirectory else none) []
      ⟨.all, .standard⟩ payment).outcome = .ok o := exists_outcome rfl (exists_plan_payment _ _)
  obtain ⟨stubs, wiring, htrace, haccounted, -⟩ := run_accounted.{0, 0} (by decide) ho
  exact ⟨o, ho, stubs, wiring, htrace, haccounted⟩

/-! ## Nothing dangles

An accessor of a platform provider makes an object of the type that should implement the base on the
platform. The coverage check has judged exactly these pairs. Without an error among its issues each
pair was accepted or asked for a stub, and without a failure each stub was written, before the
wiring. In the other direction a stub belongs to one pair, and the pair to one accessor of one
provider. -/

/-- The unit derives from the base type: it implements the base if the lookup knows that as an
interface, and extends it otherwise. -/
def Derives (l : TypeLookup) (u : SourceUnit) (base : TypeName) : Prop :=
  if ∃ d, l.find? base = some d ∧ d.kind = .interface then
    u.superclass = none ∧ u.interfaces = [base]
  else u.superclass = some base ∧ u.interfaces = []

/-- The attempts to write stubs and wiring leave nothing dangling. -/
structure Covered (l : TypeLookup) (stubs wiring : List Attempt) : Prop where
  /-- every accessor of a platform provider makes an object of a type that can stand for what it
  returns, or of a stub that was written -/
  accessor : ∀ a ∈ wiring, a.unit.isPlatformProvider = true → ∀ m ∈ a.unit.methods,
    ∃ base e, m.result = some base ∧ m.body = some [.returnNew e []] ∧
      ((∃ d, l.find? e = some d) ∧ l.assignable e base = true ∨
        ∃ stub ∈ stubs, stub.result = .ok () ∧ stub.unit.name = e ∧ Derives l stub.unit base)
  /-- every stub was written, and exactly one accessor of one platform provider makes an object of
  its type -/
  stub : ∀ a ∈ stubs, a.result = .ok () ∧
    (((wiring.map (·.unit)).filter (·.isPlatformProvider)).flatMap (·.methods)).countP
      (·.creates a.unit.name) = 1

/-- The stub that is asked for derives from its base in the way that fits the kind of the base. -/
theorem derives_stubRequest (l : TypeLookup) (base : TypeName) (p : Platform) :
    Derives l (l.stubRequest base p).unit base := by
  rw [Derives]
  rcases hf : l.find? base with _ | d
  · rw [if_neg (by rintro ⟨d, hd, -⟩; cases hd)]
    simp [StubRequest.unit, TypeLookup.stubRequest, hf, SourceUnit.blank]
  · by_cases hk : d.kind = .interface
    · rw [if_pos ⟨d, rfl, hk⟩]
      simp [StubRequest.unit, TypeLookup.stubRequest, hf, hk, SourceUnit.blank]
    · rw [if_neg (by rintro ⟨d', hd', hk'⟩; cases hd'; exact hk hk')]
      simp [StubRequest.unit, TypeLookup.stubRequest, hf, hk, SourceUnit.blank]

/-- If the outcome is a success, every pair of a base and a platform is covered: each accessor is
one pair of the check, and each stub comes from one. -/
theorem emit_covered {r : Requirements} {units : List SourceUnit} {o : Outcome}
    (hplan : config.layout.plan config.platforms r = .ok units)
    (h : (emit l k s config r units).outcome = .ok o) (hsuccess : o.isSuccess = true) :
    Covered l (stubAttempts l k s config r).attempts
      (wiringAttempts l k s config r units).attempts := by
  have haccounted := emit_accounted hplan h
  set stubs := stubAttempts l k s config r
  set wiring := wiringAttempts l k s config r units
  have hunits : wiring.attempts.map (·.unit) = units := by
    have := haccounted.planned
    rw [hplan] at this
    exact (Except.ok.inj this).symm
  have hproviders : units.filter (·.isPlatformProvider) =
      config.platforms.toList.map (config.layout.platformProvider r.sortedActions) := by
    obtain ⟨signatures, -, -, rfl⟩ := Layout.of_plan hplan
    exact Layout.filter_isPlatformProvider config.layout config.platforms _ signatures
  obtain ⟨hfailures, hissues⟩ := (isSuccess_iff o).1 hsuccess
  rw [haccounted.failures, List.append_eq_nil_iff] at hfailures
  rw [haccounted.issues] at hissues
  have hwritten : ∀ a ∈ stubs.attempts, a.result = .ok () := fun a ha =>
    Attempt.failure?_eq_none_iff.1 (List.filterMap_eq_nil_iff.1 hfailures.1 a ha)
  have hnodup : r.sortedActions.Nodup :=
    (TypeName.perm_sort _).nodup_iff.2 r.nodup_actionsTypes
  constructor
  · intro a ha hprovider m hm
    have hmem : a.unit ∈ units.filter (·.isPlatformProvider) :=
      List.mem_filter.2 ⟨hunits ▸ List.mem_map_of_mem ha, hprovider⟩
    rw [hproviders] at hmem
    obtain ⟨p, hp, he⟩ := List.mem_map.1 hmem
    rw [← he] at hm
    obtain ⟨base, hbase, rfl⟩ := List.mem_map.1 hm
    refine ⟨base, base.onPlatform p, rfl, rfl, ?_⟩
    rcases Coverage.covered_of_no_errors hissues hbase hp with hfound | hreq
    · exact Or.inl hfound
    · -- the stub was asked for, so it was attempted, and no attempt failed
      have hunit : (l.stubRequest base p).unit ∈ stubs.attempts.map (·.unit) := by
        rw [haccounted.asked]
        exact List.mem_map_of_mem hreq
      obtain ⟨stub, hstub, heq⟩ := List.mem_map.1 hunit
      refine Or.inr ⟨stub, hstub, hwritten stub hstub, ?_, ?_⟩
      · rw [heq, StubRequest.name_unit]
        rfl
      · rw [heq]
        exact derives_stubRequest l base p
  · intro a ha
    refine ⟨hwritten a ha, ?_⟩
    have hunit : a.unit ∈ stubs.attempts.map (·.unit) := List.mem_map_of_mem ha
    rw [haccounted.asked] at hunit
    obtain ⟨req, hreq, he⟩ := List.mem_map.1 hunit
    obtain ⟨base, hbase, p, hp, -, -, rfl⟩ := Coverage.mem_stubs_check.1 hreq
    rw [hunits, hproviders, ← he, StubRequest.name_unit]
    exact Layout.countP_creates config.layout hnodup hbase hp

/-- **A successful round leaves nothing dangling.** Its trace begins with the stubs, and the wiring
follows. Whatever an accessor of a platform provider makes is there, declared or as a stub that was
written before all wiring, and every stub is what exactly one accessor makes. -/
theorem run_covered {signatures : List StepsSignature} {o : Outcome}
    (h : (run l k s config signatures).outcome = .ok o) (hsuccess : o.isSuccess = true) :
    ∃ stubs wiring, trace l k s config signatures = stubs ++ wiring ∧
      (∀ a ∈ stubs, ∃ p, a.unit.role = .stub p) ∧
      ((Requirements.ofSignatures signatures).isEmpty = true ∧ wiring = [] ∨
        config.layout.plan config.platforms (Requirements.ofSignatures signatures) =
          .ok (wiring.map (·.unit))) ∧
      Covered l stubs wiring := by
  by_cases hsteps : (Requirements.ofSignatures signatures).isEmpty = true
  · exact ⟨[], [], trace_of_isEmpty hsteps, fun a ha => (List.not_mem_nil ha).elim,
      Or.inl ⟨hsteps, rfl⟩, fun a ha => (List.not_mem_nil ha).elim,
      fun a ha => (List.not_mem_nil ha).elim⟩
  · rw [Bool.not_eq_true] at hsteps
    obtain ⟨units, hplan, hrun⟩ := run_of_ok.{u, u} hsteps h
    have h' := hrun k s ▸ h
    have haccounted := emit_accounted hplan h'
    refine ⟨_, _, trace_eq_of_emit (hrun k.traced (s, [])), fun a ha => ?_,
      Or.inr haccounted.planned, emit_covered hplan h' hsuccess⟩
    have hunit := List.mem_map_of_mem (f := (·.unit)) ha
    rw [haccounted.asked] at hunit
    obtain ⟨req, -, he⟩ := List.mem_map.1 hunit
    refine ⟨req.platform, ?_⟩
    rw [← he, StubRequest.unit]
    split <;> rfl

/-- Nothing is declared, so there are two stubs. -/
theorem payment_covered : ∃ o,
    (run nothingKnown (Sink.memory fun _ => none) [] ⟨.all, .standard⟩ payment).outcome = .ok o ∧
    o.isSuccess = true ∧
    ∃ stubs wiring,
      trace nothingKnown (Sink.memory fun _ => none) [] ⟨.all, .standard⟩ payment =
        stubs ++ wiring ∧
      (∀ a ∈ stubs, ∃ p, a.unit.role = .stub p) ∧
      ((Requirements.ofSignatures payment).isEmpty = true ∧ wiring = [] ∨
        Layout.standard.plan .all (Requirements.ofSignatures payment) =
          .ok (wiring.map (·.unit))) ∧
      Covered nothingKnown stubs wiring := by
  obtain ⟨o, ho⟩ : ∃ o, (run nothingKnown (Sink.memory fun _ => none) [] ⟨.all, .standard⟩
      payment).outcome = .ok o := exists_outcome rfl (exists_plan_payment _ _)
  have hsuccess : o.isSuccess = true := by
    obtain ⟨units, hplan, hrun⟩ := run_of_ok.{0, 0} (by decide) ho
    have ho' := hrun (Sink.memory fun _ => none) [] ▸ ho
    have haccounted := emit_accounted hplan ho'
    have hcomplete : ∀ w : WrittenAll (List SourceUnit), w.isComplete = true →
        w.attempts.filterMap (·.failure?) = [] := fun w hw => List.isEmpty_iff.1 hw
    refine (isSuccess_iff o).2 ⟨?_, fun i hi => ?_⟩
    · rw [haccounted.failures, stubAttempts, wiringAttempts,
        hcomplete _ (Sink.isComplete_memory (fun _ _ => rfl) _),
        hcomplete _ (Sink.isComplete_memory (fun _ _ => rfl) _)]
      rfl
    · rw [haccounted.issues, Coverage.issues, List.mem_flatMap] at hi
      obtain ⟨⟨p, v⟩, hv, hi⟩ := hi
      obtain ⟨base, -, -, rfl⟩ := Coverage.mem_verdicts_check.1 hv
      rw [List.mem_singleton.1 hi]
      exact Bool.false_ne_true
  exact ⟨o, ho, hsuccess, run_covered ho hsuccess⟩

end Round

end PlatformWiring
