import PlatformWiring.Proofs.Coverage
import PlatformWiring.Proofs.Requirements
import PlatformWiring.Proofs.TypeName
import PlatformWiring.Wiring.Plan

/-!
# The units of a plan fit together

Each unit of the wiring is built on its own. That they agree on the methods they share is
due to the lists they are built from: the actions types that the relation lists, and one
constructor for each steps type. That no unit has two methods of one name, and no
constructor two parameters of one name, is due to the check for collisions, which a plan
has passed.
-/

namespace PlatformWiring

/-! ## Collisions

The check gathers the names of each scope, and the groups of more than one type are its complaints.
So that it has none means that in each scope the names are different. -/

namespace Collision

/-- No names collide in a scope exactly if the names of its types are all different. -/
theorem among_eq_nil_iff {scope : NameScope} {sources : List TypeName} :
    among scope sources = [] ↔ (sources.map (·.accessor)).Nodup := by
  have hcount : ∀ name, (sources.filter fun t => decide (t.accessor = name)).length =
      (sources.map (·.accessor)).count name := by
    intro name
    rw [List.count, List.countP_map, List.countP_eq_length_filter]
    rfl
  rw [List.nodup_iff_count_le_one, among, List.filterMap_eq_nil_iff]
  simp only [List.mem_mergeSort, List.mem_eraseDups, ite_eq_right_iff, reduceCtorEq, imp_false,
    not_lt, hcount]
  constructor
  · intro h name
    by_cases hname : name ∈ sources.map (·.accessor)
    · exact h name hname
    · rw [List.count_eq_zero.2 hname]
      exact Nat.zero_le 1
  · exact fun h name _ => h name

/-- Nothing collides exactly if the names of each scope are all different. -/
theorem all_eq_nil_iff {actions : List TypeName} {signatures : List StepsSignature} :
    all actions signatures = [] ↔ (actions.map (·.accessor)).Nodup ∧
      (signatures.map (·.steps.accessor)).Nodup ∧
      ∀ s ∈ signatures, (s.actions.map (·.accessor)).Nodup := by
  simp only [all, List.append_eq_nil_iff, List.flatMap_eq_nil_iff, among_eq_nil_iff,
    List.map_map, Function.comp_def, and_assoc]

end Collision

/-! ## Constructors

The constructors are looked up once the steps types are sorted. As these are the steps types that
the relation knows, no look-up fails. -/

namespace Requirements

variable {r : Requirements}

/-- The sorted constructors are those of the sorted steps types. -/
theorem of_sortedSignatures {signatures : List StepsSignature}
    (h : r.sortedSignatures = .ok signatures) :
    signatures.map (·.steps) = r.sortedSteps ∧
      ∀ s ∈ signatures, r.requiredBy s.steps = .ok s.actions := by
  rw [sortedSignatures] at h
  generalize r.sortedSteps = steps at h ⊢
  induction steps generalizing signatures with
  | nil =>
    cases h
    exact ⟨rfl, fun s hs => by cases hs⟩
  | cons t steps ih =>
    rw [List.mapM_cons] at h
    rcases hactions : r.requiredBy t with e | actions
    · rw [hactions] at h
      cases h
    · rw [hactions] at h
      rcases hrest : steps.mapM fun t => do return StepsSignature.mk t (← r.requiredBy t) with
        e | rest
      · rw [hrest] at h
        cases h
      · rw [hrest] at h
        cases h
        obtain ⟨hmap, hall⟩ := ih hrest
        refine ⟨by rw [List.map_cons, hmap], fun s hs => ?_⟩
        rcases List.mem_cons.1 hs with rfl | hs
        · exact hactions
        · exact hall s hs

/-- The steps types are known, so their constructors are. -/
theorem exists_sortedSignatures (r : Requirements) :
    ∃ signatures, r.sortedSignatures = .ok signatures := by
  have hknown : ∀ t ∈ r.sortedSteps, ∃ actions, r.requiredBy t = .ok actions := fun t ht =>
    mem_stepsTypes.1 (TypeName.mem_sort.1 ht)
  rw [sortedSignatures]
  generalize r.sortedSteps = steps at hknown
  induction steps with
  | nil => exact ⟨[], rfl⟩
  | cons t steps ih =>
    obtain ⟨actions, hactions⟩ := hknown t List.mem_cons_self
    obtain ⟨rest, hrest⟩ := ih fun u hu => hknown u (List.mem_cons_of_mem _ hu)
    rw [List.mapM_cons, hactions, hrest]
    exact ⟨⟨t, actions⟩ :: rest, rfl⟩

end Requirements

/-! ## Coherent wiring

The units are told apart by what they are for, so that what one unit owes to another can be said:
the implementations have the methods of the interface, the actions module passes each of them on,
the steps module finds every parameter among the actions, and the component lists what the steps
module builds. Each of these is read off the lists that a unit was built from, so there is one lemma
about the methods of each unit. -/

/-- The name and the result type of a method. -/
def Method.signature (m : Method) : String × Option TypeName := (m.name, m.result)

/-- The signatures of the methods, in order. -/
def SourceUnit.signatures (u : SourceUnit) : List (String × Option TypeName) :=
  u.methods.map (·.signature)

/-- The signatures hand out the types of a kind, each type once, in strict order and each by a name
of its own. -/
def HandOut (signatures : List (String × Option TypeName)) (kind : TypeName → Prop) : Prop :=
  ∃ types : List TypeName, signatures = types.map (fun t => (t.accessor, some t)) ∧
    (∀ t, t ∈ types ↔ kind t) ∧ types.Pairwise TypeName.Before ∧
    (signatures.map Prod.fst).Nodup

/-- The units of the wiring by what they are for. -/
structure Wiring where
  /-- the interface that hands out actions -/
  provider : SourceUnit
  /-- its implementations -/
  implementations : List SourceUnit
  /-- the module that hands out actions -/
  actionsModule : SourceUnit
  /-- the module that builds steps -/
  stepsModule : SourceUnit
  /-- the component that joins both modules -/
  component : SourceUnit

namespace Wiring

/-- The units, in order. -/
def units (w : Wiring) : List SourceUnit :=
  w.provider :: w.implementations ++ [w.actionsModule, w.stepsModule, w.component]

/-- The units fit together and do what the relation asks for. -/
structure Coherent (w : Wiring) (l : Layout) (platforms : Selection) (r : Requirements) :
    Prop where
  /-- there is one implementation for each selected platform -/
  roles : w.units.map (·.role) =
    .capabilityProvider :: platforms.toList.map .platformProvider ++
      [.actionsModule, .stepsModule, .component]
  /-- the types have the names of the layout -/
  names : w.units.map (·.name) =
    l.provider :: platforms.toList.map l.provider.onPlatform ++
      [l.actionsModule, l.stepsModule, l.component]
  /-- the interface hands out the actions types that some steps type requires -/
  provider : HandOut w.provider.signatures fun a =>
    ∃ steps actions, r.requiredBy steps = .ok actions ∧ a ∈ actions
  /-- the implementations have the methods of the interface -/
  implementations : ∀ u ∈ w.implementations, u.signatures = w.provider.signatures
  /-- so has the module behind its constructor; each of its methods asks the method of its own name
  of the provider that the constructor has put into the only field -/
  actionsModule : ∃ constructor accessors field,
    w.actionsModule.methods = constructor :: accessors ∧ constructor.isConstructor = true ∧
      accessors.map (·.signature) = w.provider.signatures ∧
      w.actionsModule.fields = [field] ∧ field.type = w.provider.name ∧
      (∃ p, constructor.parameters = [p] ∧ p.type = w.provider.name ∧
        constructor.body = some [.assignField field.name p.name]) ∧
      ∀ m ∈ accessors, m.body = some [.returnCall field.name m.name]
  /-- the steps module hands out the steps types of the relation -/
  stepsModule : HandOut w.stepsModule.signatures fun s => ∃ actions, r.requiredBy s = .ok actions
  /-- each of its methods takes what the steps type requires, under different names, and hands it to
  the constructor in the same order -/
  builder : ∀ m ∈ w.stepsModule.methods, ∃ steps, m.result = some steps ∧
    r.requiredBy steps = .ok (m.parameters.map (·.type)) ∧
    (m.parameters.map (·.name)).Nodup ∧
    m.body = some [.returnNew steps (m.parameters.map (·.name))]
  /-- whatever it takes, exactly one method of the actions module hands it out -/
  closed : ∀ m ∈ w.stepsModule.methods, ∀ p ∈ m.parameters,
    w.actionsModule.methods.countP (fun m' => decide (m'.result = some p.type)) = 1
  /-- the component exposes what the steps module builds -/
  component : w.component.signatures = w.stepsModule.signatures

end Wiring

namespace Layout

variable {l : Layout} {platforms : Selection} {r : Requirements}

/-- The wiring for lists that are used as they are. -/
def wiring (l : Layout) (platforms : Selection) (actions : List TypeName)
    (signatures : List StepsSignature) : Wiring where
  provider := l.capabilityProvider actions
  implementations := platforms.toList.map (l.platformProvider actions)
  actionsModule := l.actionsUnit actions
  stepsModule := l.stepsUnit signatures
  component := l.componentUnit (signatures.map (·.steps))

/-- The interface has one method for each actions type of its list. -/
theorem signatures_capabilityProvider (l : Layout) (actions : List TypeName) :
    (l.capabilityProvider actions).signatures = actions.map fun a => (a.accessor, some a) := by
  simp [SourceUnit.signatures, capabilityProvider, Method.signature, Method.abstractAccessor,
    Function.comp_def]

/-- An implementation has the same methods. -/
theorem signatures_platformProvider (l : Layout) (actions : List TypeName) (p : Platform) :
    (l.platformProvider actions p).signatures = actions.map fun a => (a.accessor, some a) := by
  simp [SourceUnit.signatures, platformProvider, Method.signature, platformAccessor,
    Function.comp_def]

/-- The steps module has one method for each constructor. -/
theorem signatures_stepsUnit (l : Layout) (signatures : List StepsSignature) :
    (l.stepsUnit signatures).signatures =
      (signatures.map (·.steps)).map fun s => (s.accessor, some s) := by
  simp [SourceUnit.signatures, stepsUnit, Method.signature, stepsBuilder, Function.comp_def]

/-- The component has one for each steps type. -/
theorem signatures_componentUnit (l : Layout) (steps : List TypeName) :
    (l.componentUnit steps).signatures = steps.map fun s => (s.accessor, some s) := by
  simp [SourceUnit.signatures, componentUnit, Method.signature, Method.abstractAccessor,
    Function.comp_def]

/-- Among accessors of different types, exactly one hands out a given one of them. -/
theorem countP_actionsUnit {actions : List TypeName} {a : TypeName} (hnodup : actions.Nodup)
    (ha : a ∈ actions) :
    (l.actionsUnit actions).methods.countP (fun m => decide (m.result = some a)) = 1 := by
  have hmethods : (l.actionsUnit actions).methods.countP (fun m => decide (m.result = some a)) =
      actions.count a := by
    simp only [actionsUnit, List.countP_cons, List.countP_map, List.count]
    simp only [actionsConstructor, delegatingAccessor, Function.comp_def, reduceCtorEq,
      decide_false, Bool.false_eq_true, if_false, Nat.add_zero, Option.some.injEq]
    rfl
  rw [hmethods, List.count_eq_one_of_mem hnodup ha]

/-- What `plan` gives is built from sorted lists whose names do not collide. -/
theorem of_plan {units : List SourceUnit} (h : l.plan platforms r = .ok units) :
    ∃ signatures, r.sortedSignatures = .ok signatures ∧
      Collision.all r.sortedActions signatures = [] ∧
      units = (l.wiring platforms r.sortedActions signatures).units := by
  rw [plan] at h
  rcases hs : r.sortedSignatures with e | signatures <;> rw [hs] at h
  · cases h
  · simp only at h
    rcases hc : Collision.all r.sortedActions signatures with _ | ⟨c, cs⟩ <;> rw [hc] at h
    · cases h
      exact ⟨signatures, rfl, hc, rfl⟩
    · cases h

/-- A plan is made exactly if the derived names of each scope are all different. -/
theorem exists_plan_iff : (∃ units, l.plan platforms r = .ok units) ↔
    (r.actionsTypes.map (·.accessor)).Nodup ∧ (r.stepsTypes.map (·.accessor)).Nodup ∧
      ∀ steps actions, r.requiredBy steps = .ok actions → (actions.map (·.accessor)).Nodup := by
  obtain ⟨signatures, hsignatures⟩ := r.exists_sortedSignatures
  obtain ⟨hsorted, hrequired⟩ := Requirements.of_sortedSignatures hsignatures
  -- sorting does not matter to whether names differ
  have hactions : (r.sortedActions.map (·.accessor)).Nodup ↔
      (r.actionsTypes.map (·.accessor)).Nodup := ((TypeName.perm_sort _).map _).nodup_iff
  have hsteps : (signatures.map (·.steps.accessor)).Nodup ↔
      (r.stepsTypes.map (·.accessor)).Nodup := by
    have hmap : signatures.map (·.steps.accessor) = r.sortedSteps.map (·.accessor) := by
      rw [← hsorted, List.map_map]
      rfl
    rw [hmap]
    exact ((TypeName.perm_sort _).map _).nodup_iff
  have hparameters : (∀ s ∈ signatures, (s.actions.map (·.accessor)).Nodup) ↔
      ∀ steps actions, r.requiredBy steps = .ok actions → (actions.map (·.accessor)).Nodup := by
    constructor
    · intro h steps actions hok
      have hmem : steps ∈ signatures.map (·.steps) := by
        rw [hsorted, Requirements.sortedSteps, TypeName.mem_sort]
        exact Requirements.mem_stepsTypes.2 ⟨actions, hok⟩
      obtain ⟨s, hs, rfl⟩ := List.mem_map.1 hmem
      obtain rfl : s.actions = actions := Except.ok.inj ((hrequired s hs).symm.trans hok)
      exact h s hs
    · exact fun h s hs => h s.steps s.actions (hrequired s hs)
  rw [← hactions, ← hsteps, ← hparameters, ← Collision.all_eq_nil_iff]
  constructor
  · rintro ⟨units, hplan⟩
    obtain ⟨signatures', hsignatures', hnone, -⟩ := of_plan hplan
    cases hsignatures.symm.trans hsignatures'
    exact hnone
  · intro hnone
    exact ⟨l.units platforms r.sortedActions signatures, by simp only [plan, hsignatures, hnone]⟩

/-- **The units of a plan fit together**, whatever the relation, the platforms and the layout. The
sorted lists are in strict order because they list different types, and the names of each unit are
different because the plan has passed the check for collisions. -/
theorem plan_coherent {units : List SourceUnit} (h : l.plan platforms r = .ok units) :
    ∃ w : Wiring, w.units = units ∧ w.Coherent l platforms r := by
  obtain ⟨signatures, hsignatures, hcollisions, rfl⟩ := of_plan h
  obtain ⟨hactions, hsteps, hparameters⟩ := Collision.all_eq_nil_iff.1 hcollisions
  obtain ⟨hsorted, hrequired⟩ := Requirements.of_sortedSignatures hsignatures
  have hstrict : r.sortedActions.Pairwise TypeName.Before :=
    TypeName.pairwise_before_sort r.nodup_actionsTypes
  have hnodup : r.sortedActions.Nodup :=
    (TypeName.perm_sort _).nodup_iff.2 r.nodup_actionsTypes
  have hmem : ∀ a, a ∈ r.sortedActions ↔
      ∃ steps actions, r.requiredBy steps = .ok actions ∧ a ∈ actions := fun a => by
    rw [Requirements.sortedActions, TypeName.mem_sort, Requirements.mem_actionsTypes]
  refine ⟨l.wiring platforms r.sortedActions signatures, rfl, ?_⟩
  constructor
  case roles => simp [Wiring.units, wiring, capabilityProvider, platformProvider, actionsUnit,
    stepsUnit, componentUnit, SourceUnit.blank, Function.comp_def]
  case names => simp [Wiring.units, wiring, capabilityProvider, platformProvider, actionsUnit,
    stepsUnit, componentUnit, SourceUnit.blank, Function.comp_def]
  case provider =>
    refine ⟨r.sortedActions, signatures_capabilityProvider l _, hmem, hstrict, ?_⟩
    simpa [wiring, signatures_capabilityProvider, Function.comp_def] using hactions
  case implementations =>
    intro u hu
    obtain ⟨p, -, rfl⟩ := List.mem_map.1 hu
    exact (signatures_platformProvider l _ p).trans (signatures_capabilityProvider l _).symm
  case actionsModule =>
    refine ⟨l.actionsConstructor, r.sortedActions.map l.delegatingAccessor, _, rfl, rfl, ?_, rfl,
      rfl, ⟨_, rfl, rfl, rfl⟩, fun m hm => ?_⟩
    · simp [wiring, signatures_capabilityProvider, Method.signature, delegatingAccessor,
        Function.comp_def]
    · obtain ⟨a, -, rfl⟩ := List.mem_map.1 hm
      rfl
  case stepsModule =>
    refine ⟨r.sortedSteps, hsorted ▸ signatures_stepsUnit l signatures, fun s => ?_,
      TypeName.pairwise_before_sort r.nodup_stepsTypes, ?_⟩
    · rw [Requirements.sortedSteps, TypeName.mem_sort, Requirements.mem_stepsTypes]
    · simpa [wiring, signatures_stepsUnit, Function.comp_def] using hsteps
  case builder =>
    intro m hm
    obtain ⟨s, hs, rfl⟩ := List.mem_map.1 hm
    refine ⟨s.steps, rfl, ?_, ?_, ?_⟩
    · simpa [stepsBuilder, Function.comp_def] using hrequired s hs
    · simpa [stepsBuilder, Function.comp_def] using hparameters s hs
    · simp [stepsBuilder, Function.comp_def]
  case closed =>
    -- a parameter is a requirement, and every requirement is among the actions types
    intro m hm p hp
    obtain ⟨s, hs, rfl⟩ := List.mem_map.1 hm
    obtain ⟨a, ha, rfl⟩ := List.mem_map.1 hp
    exact countP_actionsUnit hnodup ((hmem a).2 ⟨s.steps, s.actions, hrequired s hs, ha⟩)
  case component =>
    exact (signatures_componentUnit l _).trans (signatures_stepsUnit l _).symm

/-- Two steps types that share an actions type, on both platforms. -/
theorem standard_plan_coherent :
    ∃ units, standard.plan .all (.ofSignatures [⟨⟨"s", "Pay"⟩, [⟨"a", "Cart"⟩, ⟨"a", "Bank"⟩]⟩,
        ⟨⟨"s", "Browse"⟩, [⟨"a", "Cart"⟩]⟩]) = .ok units ∧
      ∃ w : Wiring, w.units = units ∧ w.Coherent standard .all
        (.ofSignatures [⟨⟨"s", "Pay"⟩, [⟨"a", "Cart"⟩, ⟨"a", "Bank"⟩]⟩,
          ⟨⟨"s", "Browse"⟩, [⟨"a", "Cart"⟩]⟩]) := by
  have hplan : ∃ units, standard.plan .all (.ofSignatures
      [⟨⟨"s", "Pay"⟩, [⟨"a", "Cart"⟩, ⟨"a", "Bank"⟩]⟩, ⟨⟨"s", "Browse"⟩, [⟨"a", "Cart"⟩]⟩]) =
        .ok units := by
    refine exists_plan_iff.2 ⟨by decide +kernel, by decide +kernel, fun steps actions h => ?_⟩
    have hmem := OrderedMap.mem_values_iff.2 ⟨steps, Requirements.requiredBy_eq_ok_iff.1 h⟩
    clear h
    revert actions
    decide +kernel
  obtain ⟨units, hunits⟩ := hplan
  exact ⟨units, hunits, plan_coherent hunits⟩

end Layout

/-! ## What platform providers make

An implementation of the provider makes objects, and the name of each object tells the platform and
the base that it is for. So an object of a given name is made in one accessor of one implementation,
and nowhere else. -/

/-- The method makes an object of the type. -/
def Method.creates (m : Method) (e : TypeName) : Bool :=
  decide (e ∈ (m.body.getD []).flatMap (·.types))

/-- The unit is the implementation of the provider on some platform. -/
def SourceUnit.isPlatformProvider (u : SourceUnit) : Bool :=
  match u.role with
  | .platformProvider _ => true
  | _ => false

namespace Layout

/-- The wiring has the platform providers of the selected platforms. -/
theorem filter_isPlatformProvider (l : Layout) (platforms : Selection) (actions : List TypeName)
    (signatures : List StepsSignature) :
    (l.wiring platforms actions signatures).units.filter (·.isPlatformProvider) =
      platforms.toList.map (l.platformProvider actions) := by
  have hall : (platforms.toList.map (l.platformProvider actions)).filter
      (·.isPlatformProvider) = platforms.toList.map (l.platformProvider actions) := by
    rw [List.filter_eq_self]
    intro u hu
    obtain ⟨p, -, rfl⟩ := List.mem_map.1 hu
    rfl
  rw [Wiring.units, List.cons_append, List.filter_cons, List.filter_append]
  exact congrArg (· ++ []) hall |>.trans (List.append_nil _)

/-- The name of an implementation gives away its platform and its base, so only the accessor of that
base on that platform makes an object of it. -/
theorem creates_platformAccessor_iff {p p' : Platform} {base base' : TypeName} :
    (platformAccessor p' base').creates (base.onPlatform p) = true ↔ p' = p ∧ base' = base := by
  rw [Method.creates, decide_eq_true_iff]
  simp only [platformAccessor, Option.getD_some, List.flatMap_cons, List.flatMap_nil,
    Statement.types, List.append_nil, List.mem_singleton]
  constructor
  · intro h
    obtain ⟨rfl, rfl⟩ := TypeName.onPlatform_inj h
    exact ⟨rfl, rfl⟩
  · rintro ⟨rfl, rfl⟩
    rfl

/-- Exactly one accessor makes an object of the implementation of a type on a platform. -/
theorem countP_creates (l : Layout) {platforms : Selection} {actions : List TypeName}
    (hnodup : actions.Nodup) {base : TypeName} (hbase : base ∈ actions) {p : Platform}
    (hp : p ∈ platforms.toList) :
    ((platforms.toList.map (l.platformProvider actions)).flatMap (·.methods)).countP
      (·.creates (base.onPlatform p)) = 1 := by
  have hmethods : (platforms.toList.map (l.platformProvider actions)).flatMap (·.methods) =
      (platforms.toList.product actions).map fun e => platformAccessor e.1 e.2 := by
    simp only [List.flatMap_map, List.product, List.map_flatMap, List.map_map]
    rfl
  have hcreates : ∀ e : Platform × TypeName,
      (platformAccessor e.1 e.2).creates (base.onPlatform p) = (e == (p, base)) := by
    intro e
    rw [Bool.eq_iff_iff, beq_iff_eq, creates_platformAccessor_iff, Prod.ext_iff]
  have hproduct : (platforms.toList.product actions).Nodup :=
    (List.Nodup.filter _ (by decide)).product hnodup
  rw [hmethods, List.countP_map]
  simp only [Function.comp_def, hcreates]
  exact List.count_eq_one_of_mem hproduct (List.pair_mem_product.2 ⟨hp, hbase⟩)

end Layout

end PlatformWiring
