import PlatformWiring.Proofs.Round
import PlatformWiring.Proofs.Source.Path

/-!
# Names of generated types

Nothing checks that the types that a round generates have different names. Stubs differ from
each other, and so do the implementations of the provider, since a platform's tag tells both the
type and the platform. All other names stand in the layout, which is free to give one name to two
types, or to give a type the name of a stub. A round keeps its names apart exactly if its layout
does, and then, if names are plain, no source of the round takes the place of another.
-/

namespace PlatformWiring

universe u

namespace TypeName

/-- The tags of the platforms differ. -/
theorem onPlatform_left_injective (t : TypeName) : Function.Injective t.onPlatform :=
  fun _ _ h => (onPlatform_inj h).2

/-- The implementation of a type with a plain name has a plain name. -/
theorem Plain.onPlatform {t : TypeName} (h : t.Plain) (p : Platform) : (t.onPlatform p).Plain where
  package := h.package
  segments := h.segments
  simple := by
    have := h.simple
    cases p <;> simpa [TypeName.onPlatform, tagged, Platform.tag] using this
  stop := by
    have := h.stop
    cases p <;> simpa [TypeName.onPlatform, tagged, Platform.tag] using this

end TypeName

/-! ## Names of a round

All names of a round can be listed before it is run: those of the stubs, those of the
implementations of the provider, and those of the layout. The first two lists repeat nothing on
their own. So the names of the round differ exactly if the layout repeats nothing and no two of the
three lists have a name in common. -/

namespace Layout

/-- The names that a layout gives to types. -/
def names (layout : Layout) : List TypeName :=
  [layout.provider, layout.actionsModule, layout.stepsModule, layout.component]

/-- The names of the units of a wiring. -/
theorem names_wiring (layout : Layout) (platforms : Selection) (actions : List TypeName)
    (signatures : List StepsSignature) :
    (layout.wiring platforms actions signatures).units.map (·.name) =
      layout.provider :: platforms.toList.map layout.provider.onPlatform ++
        [layout.actionsModule, layout.stepsModule, layout.component] := by
  simp [Wiring.units, wiring, capabilityProvider, platformProvider, actionsUnit, stepsUnit,
    componentUnit, SourceUnit.blank, Function.comp_def]

/-- The names in a wiring are those of the layout and those of the implementations. -/
theorem perm_names_wiring (layout : Layout) (platforms : Selection) (actions : List TypeName)
    (signatures : List StepsSignature) :
    ((layout.wiring platforms actions signatures).units.map (·.name)).Perm
      (platforms.toList.map layout.provider.onPlatform ++ layout.names) := by
  rw [names_wiring, names, List.cons_append]
  exact List.perm_middle.symm

end Layout

namespace Round

/-- The names of a round are kept apart: the layout names each type differently, and neither an
implementation of the provider nor a stub has one of these names. -/
structure NamesApart (l : TypeLookup) (config : RoundConfig) (r : Requirements) : Prop where
  /-- the names of the layout are different -/
  layout : config.layout.names.Nodup
  /-- an implementation of the provider has none of them -/
  implementations : ∀ p ∈ config.platforms.toList,
    config.layout.provider.onPlatform p ∉ config.layout.names
  /-- a stub has none of them, and it is no stub of the provider -/
  stubs : ∀ base ∈ r.actionsTypes, ∀ p ∈ config.platforms.toList,
    l.find? (base.onPlatform p) = none → l.unimplemented base = [] →
      base ≠ config.layout.provider ∧ base.onPlatform p ∉ config.layout.names

variable {σ : Type u} {l : TypeLookup} {k : Sink σ} {s : σ} {config : RoundConfig}
  {signatures : List StepsSignature} {r : Requirements} {units : List SourceUnit}

/-- The names of the stubs that a round asks for and of what it plans. -/
def names (l : TypeLookup) (config : RoundConfig) (r : Requirements) : List TypeName :=
  (Coverage.check l config.platforms r.sortedActions).stubs.map (·.stub) ++
    (config.platforms.toList.map config.layout.provider.onPlatform ++ config.layout.names)

/-- A name of the round is that of a stub that was asked for, that of an implementation of the
provider, or one that the layout gives. -/
theorem mem_names {t : TypeName} : t ∈ names l config r ↔
    (∃ base ∈ r.actionsTypes, ∃ p ∈ config.platforms.toList,
        l.find? (base.onPlatform p) = none ∧ l.unimplemented base = [] ∧ t = base.onPlatform p) ∨
      (∃ p ∈ config.platforms.toList, t = config.layout.provider.onPlatform p) ∨
      t ∈ config.layout.names := by
  simp only [names, List.mem_append, List.mem_map, Coverage.mem_stubs_check,
    Requirements.sortedActions, TypeName.mem_sort]
  constructor
  · rintro (⟨req, ⟨base, hbase, p, hp, hnone, hall, rfl⟩, rfl⟩ | ⟨p, hp, rfl⟩ | h)
    · exact Or.inl ⟨base, hbase, p, hp, hnone, hall, rfl⟩
    · exact Or.inr (Or.inl ⟨p, hp, rfl⟩)
    · exact Or.inr (Or.inr h)
  · rintro (⟨base, hbase, p, hp, hnone, hall, rfl⟩ | ⟨p, hp, rfl⟩ | h)
    · exact Or.inl ⟨l.stubRequest base p, ⟨base, hbase, p, hp, hnone, hall, rfl⟩, rfl⟩
    · exact Or.inr (Or.inl ⟨p, hp, rfl⟩)
    · exact Or.inr (Or.inr h)

/-- The names are different exactly if they are kept apart. -/
theorem nodup_names_iff : (names l config r).Nodup ↔ NamesApart l config r := by
  have hstubs : ((Coverage.check l config.platforms r.sortedActions).stubs.map (·.stub)).Nodup :=
    Coverage.nodup_stubs_check ((TypeName.perm_sort _).nodup_iff.2 r.nodup_actionsTypes)
  have himplementations :
      (config.platforms.toList.map config.layout.provider.onPlatform).Nodup :=
    (List.Nodup.filter _ (by decide)).map (TypeName.onPlatform_left_injective _)
  -- what is left is that no two of the three lists share a name
  simp only [names, List.nodup_append', hstubs, himplementations, true_and]
  constructor
  · rintro ⟨⟨hlayout, hdisjoint⟩, hdisjoint'⟩
    refine ⟨hlayout, fun p hp => hdisjoint (List.mem_map_of_mem hp),
      fun base hbase p hp hnone hall => ?_⟩
    have hstub : base.onPlatform p ∈
        (Coverage.check l config.platforms r.sortedActions).stubs.map (·.stub) :=
      List.mem_map.2 ⟨l.stubRequest base p, Coverage.mem_stubs_check.2
        ⟨base, TypeName.mem_sort.2 hbase, p, hp, hnone, hall, rfl⟩, rfl⟩
    exact ⟨fun he => hdisjoint' hstub (List.mem_append_left _ (he ▸ List.mem_map_of_mem hp)),
      fun hmem => hdisjoint' hstub (List.mem_append_right _ hmem)⟩
  · rintro ⟨hlayout, hprovider, hstub⟩
    refine ⟨⟨hlayout, fun t ht => ?_⟩, fun t ht => ?_⟩
    · obtain ⟨p, hp, rfl⟩ := List.mem_map.1 ht
      exact hprovider p hp
    · obtain ⟨req, hreq, rfl⟩ := List.mem_map.1 ht
      obtain ⟨base, hbase, p, hp, hnone, hall, rfl⟩ := Coverage.mem_stubs_check.1 hreq
      obtain ⟨hne, hnot⟩ := hstub base (TypeName.mem_sort.1 hbase) p hp hnone hall
      intro hmem
      rcases List.mem_append.1 hmem with hmem | hmem
      · obtain ⟨p', -, he⟩ := List.mem_map.1 hmem
        exact hne (TypeName.onPlatform_inj he).1.symm
      · exact hnot hmem

/-- A round with steps types that runs to its end hands these names to the sink. -/
theorem perm_names_trace {o : Outcome}
    (hsteps : (Requirements.ofSignatures signatures).isEmpty = false)
    (h : (run l k s config signatures).outcome = .ok o) :
    ((trace l k s config signatures).map (·.unit.name)).Perm
      (names l config (.ofSignatures signatures)) := by
  obtain ⟨units, hplan, hrun⟩ := run_of_ok.{u, u} hsteps h
  obtain ⟨signatures', -, -, rfl⟩ := Layout.of_plan hplan
  have hmap : (trace l k s config signatures).map (·.unit.name) =
      ((trace l k s config signatures).map (·.unit)).map (·.name) := by
    rw [List.map_map]
    rfl
  rw [hmap, units_trace (hrun k.traced (s, [])), List.map_append, List.map_map]
  refine List.Perm.append (List.Perm.of_eq ?_) (Layout.perm_names_wiring _ _ _ _)
  simp only [Function.comp_def, StubRequest.name_unit]

/-- What holds of the names of the layout and of the actions types, and of the implementations of
types of which it holds, holds of all names of a round. -/
theorem forall_name_trace {P : TypeName → Prop} {o : Outcome}
    (h : (run l k s config signatures).outcome = .ok o)
    (hplatform : ∀ t p, P t → P (t.onPlatform p)) (hlayout : ∀ t ∈ config.layout.names, P t)
    (hactions : ∀ t ∈ (Requirements.ofSignatures signatures).actionsTypes, P t) :
    ∀ a ∈ trace l k s config signatures, P a.unit.name := by
  intro a ha
  by_cases hsteps : (Requirements.ofSignatures signatures).isEmpty = true
  · rw [trace_of_isEmpty hsteps] at ha
    cases ha
  · rw [Bool.not_eq_true] at hsteps
    have hname := (perm_names_trace hsteps h).mem_iff.1
      (List.mem_map_of_mem (f := (·.unit.name)) ha)
    rcases mem_names.1 hname with ⟨base, hbase, p, -, -, -, he⟩ | ⟨p, -, he⟩ | hmem
    · exact he ▸ hplatform base p (hactions base hbase)
    · exact he ▸ hplatform _ p (hlayout _ List.mem_cons_self)
    · exact hlayout _ hmem

/-- **A round keeps its names apart exactly if its layout does**, unless there are no steps types
and nothing is generated. If the names are different and those of the layout and of the actions
types are plain, then the sources lie in different places, and none replaces another. -/
theorem nodup_names_trace_iff {o : Outcome} (h : (run l k s config signatures).outcome = .ok o) :
    (((trace l k s config signatures).map (·.unit.name)).Nodup ↔
      (Requirements.ofSignatures signatures).isEmpty = true ∨
        NamesApart l config (.ofSignatures signatures)) ∧
    (((trace l k s config signatures).map (·.unit.name)).Nodup →
      (∀ t ∈ config.layout.names, t.Plain) →
      (∀ t ∈ (Requirements.ofSignatures signatures).actionsTypes, t.Plain) →
        ((trace l k s config signatures).map (·.unit.path.parts)).Nodup) := by
  by_cases hsteps : (Requirements.ofSignatures signatures).isEmpty = true
  · simp [trace_of_isEmpty hsteps, hsteps]
  · rw [Bool.not_eq_true] at hsteps
    have hperm := perm_names_trace hsteps h
    refine ⟨by simp [hperm.nodup_iff, nodup_names_iff, hsteps], fun hnodup hlayout hactions => ?_⟩
    have hplain : ∀ a ∈ trace l k s config signatures, a.unit.name.Plain :=
      forall_name_trace h (fun _ p ht => ht.onPlatform p) hlayout hactions
    rw [List.nodup_iff_pairwise_ne, List.pairwise_map] at hnodup ⊢
    exact hnodup.imp_of_mem fun ha hb hne he =>
      hne (SourceUnit.name_eq_of_path_parts (hplain _ ha) (hplain _ hb) he)

/-- The provider and the component have one name. -/
def sharing : RoundConfig :=
  ⟨.all, { Layout.standard with provider := ⟨"app", "Wiring"⟩, component := ⟨"app", "Wiring"⟩ }⟩

/-- The round runs to its end all the same. -/
theorem sharing_not_nodup_names : ∃ o,
    (run nothingKnown (Sink.memory fun _ => none) [] sharing payment).outcome = .ok o ∧
      ¬((trace nothingKnown (Sink.memory fun _ => none) [] sharing payment).map
        (·.unit.name)).Nodup := by
  obtain ⟨o, ho⟩ : ∃ o, (run nothingKnown (Sink.memory fun _ => none) [] sharing
      payment).outcome = .ok o := exists_outcome rfl (exists_plan_payment _ _)
  refine ⟨o, ho, fun hnodup => ?_⟩
  have hlayout := (List.nodup_append'.1 ((perm_names_trace (by decide) ho).nodup hnodup)).2.1
  exact absurd (List.nodup_append'.1 hlayout).2.1 (by decide)

/-- The standard layout keeps the names of the payment round apart. -/
theorem payment_nodup_names : ∃ o,
    (run nothingKnown (Sink.memory fun _ => none) [] ⟨.all, .standard⟩ payment).outcome = .ok o ∧
      ((trace nothingKnown (Sink.memory fun _ => none) [] ⟨.all, .standard⟩ payment).map
        (·.unit.name)).Nodup ∧
      ((trace nothingKnown (Sink.memory fun _ => none) [] ⟨.all, .standard⟩ payment).map
        (·.unit.path.parts)).Nodup := by
  obtain ⟨o, ho⟩ : ∃ o, (run nothingKnown (Sink.memory fun _ => none) [] ⟨.all, .standard⟩
      payment).outcome = .ok o := exists_outcome rfl (exists_plan_payment _ _)
  obtain ⟨hiff, hplaces⟩ := nodup_names_trace_iff ho
  have hactions : (Requirements.ofSignatures payment).actionsTypes = [⟨"a", "PayActions"⟩] := by
    decide
  have hapart : NamesApart nothingKnown ⟨.all, .standard⟩ (.ofSignatures payment) := by
    refine ⟨by decide, by decide, ?_⟩
    rw [hactions]
    decide
  have hnodup := hiff.2 (Or.inr hapart)
  exact ⟨o, ho, hnodup, hplaces hnodup (by decide) (hactions ▸ by decide)⟩

end Round

end PlatformWiring
