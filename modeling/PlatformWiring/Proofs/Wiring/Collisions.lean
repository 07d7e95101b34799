import PlatformWiring.Proofs.Wiring.Ambiguity

/-!
# The reported collisions

A plan that fails over names says which. Every scope lists the types that are named in it, and
there is one collision for each name that two entries of such a list have: it holds all entries
with that name, in the order of the list. The collisions are in the order of the scopes and, within
a scope, in the order of the names, so none of them comes twice.
-/

namespace PlatformWiring

/-! ## Scopes

There are two scopes for accessors and one for the parameters of each constructor. What a scope
lists is said here without the lists that the check goes through: the accessors by what stands in
the relation, in order and without repeats, and the parameters as they were recorded. This
determines the list. -/

/-- The scope comes before the other: actions before steps before constructors, and these in the
order of their steps types. -/
inductive NameScope.Before : NameScope → NameScope → Prop
  | actionsSteps : Before .actionsAccessors .stepsAccessors
  | actionsParameters {steps : TypeName} : Before .actionsAccessors (.parametersOf steps)
  | stepsParameters {steps : TypeName} : Before .stepsAccessors (.parametersOf steps)
  | parameters {steps steps' : TypeName} (h : steps.Before steps') :
    Before (.parametersOf steps) (.parametersOf steps')

theorem NameScope.not_before_self (scope : NameScope) : ¬scope.Before scope := by
  intro h
  cases h with
  | parameters h => exact TypeName.not_before_self _ h

/-- The scope lists these types, each as often as it is named there. -/
inductive Requirements.Scoped (r : Requirements) : NameScope → List TypeName → Prop
  /-- the actions types, each once and in order -/
  | actions {types : List TypeName} (hmem : ∀ t, t ∈ types ↔ t ∈ r.actionsTypes)
    (h : types.Pairwise TypeName.Before) : Scoped r .actionsAccessors types
  /-- the steps types, each once and in order -/
  | steps {types : List TypeName} (hmem : ∀ t, t ∈ types ↔ t ∈ r.stepsTypes)
    (h : types.Pairwise TypeName.Before) : Scoped r .stepsAccessors types
  /-- what a steps type requires, as it was recorded -/
  | parameters {steps : TypeName} {types : List TypeName} (h : r.requiredBy steps = .ok types) :
    Scoped r (.parametersOf steps) types

namespace Requirements

variable {r : Requirements} {scope : NameScope} {types types' : List TypeName}

/-- A scope lists one list of types: a list in strict order is known by its members. -/
theorem Scoped.unique (h : r.Scoped scope types) (h' : r.Scoped scope types') : types = types' := by
  cases h with
  | actions hmem h =>
    cases h' with
    | actions hmem' h' =>
      exact TypeName.eq_of_pairwise_before h h' fun t => (hmem t).trans (hmem' t).symm
  | steps hmem h =>
    cases h' with
    | steps hmem' h' =>
      exact TypeName.eq_of_pairwise_before h h' fun t => (hmem t).trans (hmem' t).symm
  | parameters h =>
    cases h' with
    | parameters h' => exact Except.ok.inj (h.symm.trans h')

/-- The first scope lists the sorted actions types. -/
theorem scoped_sortedActions (r : Requirements) : r.Scoped .actionsAccessors r.sortedActions :=
  .actions (fun _ => TypeName.mem_sort) (TypeName.pairwise_before_sort r.nodup_actionsTypes)

theorem scoped_sortedSteps (r : Requirements) : r.Scoped .stepsAccessors r.sortedSteps :=
  .steps (fun _ => TypeName.mem_sort) (TypeName.pairwise_before_sort r.nodup_stepsTypes)

end Requirements

/-! ## The collisions of a scope

Within a scope the check goes through the names in order and keeps those that more than one entry
has. -/

namespace Collision

variable {scope : NameScope} {types : List TypeName} {c : Collision}

/-- The collision comes before the other: its scope does, or the scope is the same and the name
does. -/
def Before (c c' : Collision) : Prop :=
  c.scope.Before c'.scope ∨ c.scope = c'.scope ∧ c.name < c'.name

/-- A name collides if two entries have it, and the collision holds all entries that do. -/
theorem mem_among_iff : c ∈ among scope types ↔
    c.scope = scope ∧ c.sources = types.filter (·.accessor = c.name) ∧ 2 ≤ c.sources.length := by
  simp only [among, List.mem_filterMap, List.mem_mergeSort, List.mem_eraseDups,
    Option.ite_none_right_eq_some, Option.some.injEq]
  constructor
  · rintro ⟨name, -, hlt, rfl⟩
    exact ⟨rfl, rfl, hlt⟩
  · rintro ⟨hscope, hsources, hle⟩
    obtain ⟨t, ht⟩ := List.exists_mem_of_length_pos (Nat.lt_of_lt_of_le Nat.two_pos hle)
    rw [hsources] at ht hle
    obtain ⟨hmem, hname⟩ := List.mem_filter.1 ht
    refine ⟨c.name, List.mem_map.2 ⟨t, hmem, of_decide_eq_true hname⟩, hle, ?_⟩
    rw [← hscope, ← hsources]

/-- The collisions of a scope are in the order of their names. -/
theorem pairwise_among (scope : NameScope) (types : List TypeName) :
    (among scope types).Pairwise Before := by
  -- each name is looked at once, and smaller names first
  have hnames := Text.pairwise_lt_mergeSort (nodup_eraseDups (types.map (·.accessor)))
  refine List.Pairwise.filterMap _ (fun a b hab c hc c' hc' => ?_) hnames
  simp only [Option.ite_none_right_eq_some] at hc hc'
  obtain ⟨-, hc⟩ := hc
  obtain ⟨-, hc'⟩ := hc'
  cases hc
  cases hc'
  exact Or.inr ⟨rfl, hab⟩

/-! ## The collisions of all scopes

The check goes through the scopes in their order, so all that is reported is in the order of scope
and name. That order is strict, and for that reason nothing is reported twice and two entries with
one name are inside one collision only. -/

/-- The scopes with the types that they list. -/
def scopes (actions : List TypeName) (signatures : List StepsSignature) :
    List (NameScope × List TypeName) :=
  (.actionsAccessors, actions) :: (.stepsAccessors, signatures.map (·.steps)) ::
    signatures.map fun s => (.parametersOf s.steps, s.actions)

/-- What is reported is what is reported for each scope. -/
theorem all_eq_flatMap (actions : List TypeName) (signatures : List StepsSignature) :
    all actions signatures = (scopes actions signatures).flatMap fun s => among s.1 s.2 := by
  simp only [all, scopes, List.flatMap_cons, List.flatMap_map, List.append_assoc]

variable {r : Requirements} {signatures : List StepsSignature}

/-- The check goes through every scope, with the types that the scope lists. -/
theorem mem_scopes_iff (h : r.sortedSignatures = .ok signatures) :
    (scope, types) ∈ scopes r.sortedActions signatures ↔ r.Scoped scope types := by
  obtain ⟨hsteps, hrequired⟩ := Requirements.of_sortedSignatures h
  simp only [scopes, hsteps, List.mem_cons, List.mem_map, Prod.mk.injEq]
  constructor
  · rintro (⟨rfl, rfl⟩ | ⟨rfl, rfl⟩ | ⟨s, hs, rfl, rfl⟩)
    · exact r.scoped_sortedActions
    · exact r.scoped_sortedSteps
    · exact .parameters (hrequired s hs)
  · intro hscoped
    cases hscoped with
    | actions hmem hbefore =>
      exact Or.inl ⟨rfl, (Requirements.Scoped.actions hmem hbefore).unique r.scoped_sortedActions⟩
    | steps hmem hbefore =>
      exact Or.inr (Or.inl ⟨rfl,
        (Requirements.Scoped.steps hmem hbefore).unique r.scoped_sortedSteps⟩)
    | parameters hactions =>
      rename_i steps
      -- a steps type that is known is among the sorted ones
      have hmem : steps ∈ signatures.map (·.steps) := by
        rw [hsteps, Requirements.sortedSteps, TypeName.mem_sort, Requirements.mem_stepsTypes]
        exact ⟨types, hactions⟩
      obtain ⟨s, hs, rfl⟩ := List.mem_map.1 hmem
      exact Or.inr (Or.inr ⟨s, hs, rfl, Except.ok.inj ((hrequired s hs).symm.trans hactions)⟩)

/-- It goes through them in their order. -/
theorem pairwise_scopes (h : r.sortedSignatures = .ok signatures) :
    (scopes r.sortedActions signatures).Pairwise fun s s' => s.1.Before s'.1 := by
  have hsteps : (signatures.map (·.steps)).Pairwise TypeName.Before := by
    rw [(Requirements.of_sortedSignatures h).1]
    exact TypeName.pairwise_before_sort r.nodup_stepsTypes
  simp only [scopes, List.pairwise_cons, List.mem_cons, List.mem_map, List.pairwise_map]
  refine ⟨?_, ?_, (List.pairwise_map.1 hsteps).imp NameScope.Before.parameters⟩
  · rintro s (rfl | ⟨s, -, rfl⟩)
    · exact .actionsSteps
    · exact .actionsParameters
  · rintro s ⟨s, -, rfl⟩
    exact .stepsParameters

/-- The collisions say of every name in every scope whether two types have it. -/
structure Exact (r : Requirements) (found : List Collision) : Prop where
  /-- they are in the order of the scopes, and of the names within a scope -/
  ordered : found.Pairwise Before
  /-- no name is reported twice for a scope -/
  once : (found.map fun c => (c.scope, c.name)).Nodup
  /-- each holds the entries of its scope that have its name, and these are at least two -/
  sources : ∀ c ∈ found, ∃ types, r.Scoped c.scope types ∧
    c.sources = types.filter (·.accessor = c.name) ∧ 2 ≤ c.sources.length
  /-- two entries of a scope that have the same name are inside one collision -/
  complete : ∀ scope types a b, r.Scoped scope types → [a, b].Sublist types →
    a.accessor = b.accessor → ∃! c, c ∈ found ∧ c.scope = scope ∧ [a, b].Sublist c.sources

/-- A collision is reported exactly if it holds all entries of its scope that have its name, and
these are at least two. -/
theorem mem_all_iff (h : r.sortedSignatures = .ok signatures) :
    c ∈ all r.sortedActions signatures ↔ ∃ types, r.Scoped c.scope types ∧
      c.sources = types.filter (·.accessor = c.name) ∧ 2 ≤ c.sources.length := by
  simp only [all_eq_flatMap, List.mem_flatMap, mem_among_iff]
  constructor
  · rintro ⟨⟨scope, types⟩, hs, rfl, hsources⟩
    exact ⟨types, (mem_scopes_iff h).1 hs, hsources⟩
  · rintro ⟨types, hscoped, hsources⟩
    exact ⟨(c.scope, types), (mem_scopes_iff h).2 hscoped, rfl, hsources⟩

/-- The collisions are in the order of their scopes and names. -/
theorem pairwise_all (h : r.sortedSignatures = .ok signatures) :
    (all r.sortedActions signatures).Pairwise Before := by
  rw [all_eq_flatMap, List.pairwise_flatMap]
  refine ⟨fun s _ => pairwise_among s.1 s.2, (pairwise_scopes h).imp fun hbefore c hc c' hc' => ?_⟩
  rw [← (mem_among_iff.1 hc).1, ← (mem_among_iff.1 hc').1] at hbefore
  exact Or.inl hbefore

/-- What is reported is exact. Nothing is repeated because the order is strict, and all the rest is
said by what is reported for a scope. -/
theorem exact_all (h : r.sortedSignatures = .ok signatures) :
    Exact r (all r.sortedActions signatures) := by
  constructor
  case ordered => exact pairwise_all h
  case once =>
    refine List.pairwise_map.2 ((pairwise_all h).imp ?_)
    rintro c c' (hscope | ⟨-, hname⟩) he
    · rw [(Prod.mk.inj he).1] at hscope
      exact NameScope.not_before_self _ hscope
    · rw [(Prod.mk.inj he).2] at hname
      exact lt_irrefl _ hname
  case sources => exact fun c hc => (mem_all_iff h).1 hc
  case complete =>
    intro scope types a b hscoped hsub hname
    have hfilter : [a, b].Sublist (types.filter (·.accessor = a.accessor)) := by
      have hboth := hsub.filter (·.accessor = a.accessor)
      rwa [List.filter_eq_self.2 (by simp [hname])] at hboth
    refine ⟨⟨scope, a.accessor, types.filter (·.accessor = a.accessor)⟩, ⟨?_, rfl, hfilter⟩, ?_⟩
    · exact (mem_all_iff h).2 ⟨types, hscoped, rfl, hfilter.length_le⟩
    · rintro c ⟨hc, rfl, hinside⟩
      obtain ⟨types', hscoped', hsources, -⟩ := (mem_all_iff h).1 hc
      obtain rfl := hscoped.unique hscoped'
      -- the entries inside a collision have its name
      have ha : a ∈ types.filter (·.accessor = c.name) :=
        hsources ▸ hinside.subset List.mem_cons_self
      rw [of_decide_eq_true (List.mem_filter.1 ha).2, ← hsources]

end Collision

namespace Layout

/-- **The collisions of names are reported exactly.** Planning fails if the names of a scope are
ambiguous and for no other reason, and then it reports every collision: each name that two entries
of a scope have, once, with all the entries that have it. -/
theorem plan_eq_error_iff (l : Layout) (platforms : Selection) (r : Requirements) :
    ∃ found, Collision.Exact r found ∧
      ∀ e, l.plan platforms r = .error e ↔ r.Ambiguous ∧ e = .collisions found := by
  obtain ⟨signatures, hsignatures⟩ := r.exists_sortedSignatures
  refine ⟨_, Collision.exact_all hsignatures, fun e => ⟨fun h => ?_, ?_⟩⟩
  · exact ⟨exists_plan_error_iff.1 ⟨e, h⟩, eq_collisions_of_plan hsignatures h⟩
  · rintro ⟨hambiguous, rfl⟩
    obtain ⟨e, h⟩ := (@exists_plan_error_iff l platforms r).2 hambiguous
    rwa [eq_collisions_of_plan hsignatures h] at h

end Layout

end PlatformWiring
