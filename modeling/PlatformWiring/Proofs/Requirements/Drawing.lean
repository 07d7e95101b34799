import PlatformWiring.Proofs.Requirements.Recording
import PlatformWiring.Proofs.TypeName

/-!
# The drawing of a relation

The drawing has a node for each steps type and an edge for each actions type that it requires, both
in the order of names. Names in strict order are known by which names they are, so nothing is left
in the text of the order in which the relation was recorded, nor of how often: relations that know
the same steps types with the same requirements have the same drawing.
-/

namespace PlatformWiring

/-! ## Names in strict order

`ListsInOrder` pins a list down by the property that its members have, whatever list was sorted. So
two such lists are equal as soon as the properties are, and that is used for the nodes and once more
for the edges of each node. -/

/-- `ts` lists the names with the property, each before the ones that follow it. -/
structure TypeName.ListsInOrder (P : TypeName → Prop) (ts : List TypeName) : Prop where
  /-- they are in strict order, so that none comes twice -/
  strict : ts.Pairwise TypeName.Before
  /-- the names with the property are listed, and no others -/
  mem_iff : ∀ t, t ∈ ts ↔ P t

namespace TypeName

/-- There is only one list of the names with a property. -/
theorem ListsInOrder.unique {P P' : TypeName → Prop} {ts ts' : List TypeName}
    (h : ListsInOrder P ts) (h' : ListsInOrder P' ts') (hP : ∀ t, P t ↔ P' t) : ts = ts' :=
  eq_of_pairwise_before h.strict h'.strict fun t =>
    (h.mem_iff t).trans ((hP t).trans (h'.mem_iff t).symm)

/-- Sorting lists the members of a list without repeats. -/
theorem listsInOrder_sort {ts : List TypeName} (h : ts.Nodup) :
    ListsInOrder (· ∈ ts) (sort ts) where
  strict := pairwise_before_sort h
  mem_iff _ := mem_sort

/-- Sorting without repeats lists the members of any list. -/
theorem listsInOrder_sortDistinct (ts : List TypeName) :
    ListsInOrder (· ∈ ts) (sortDistinct ts) where
  strict := pairwise_before_sort (nodup_eraseDups ts)
  mem_iff _ := mem_sort.trans List.mem_eraseDups

end TypeName

namespace Requirements

variable {r r' : Requirements} {calls calls' : List Recording} {steps action : TypeName}

/-! ## The relation

The relation is which steps types are known and which actions types each of them requires. Order and
multiplicity are no part of it, although what is recorded has both. -/

/-- The steps type is known and requires the actions type. -/
def Requires (r : Requirements) (steps action : TypeName) : Prop :=
  ∃ actions, r.requiredBy steps = .ok actions ∧ action ∈ actions

/-- A steps type requires what stands under it. -/
theorem requires_iff :
    r.Requires steps action ↔ action ∈ (r.entries.find? steps).getD [] := by
  simp only [Requires, requiredBy_eq_ok_iff]
  cases r.entries.find? steps <;> simp

/-- The same steps types are known, and each of them requires the same actions types. -/
structure SameRelation (r r' : Requirements) : Prop where
  /-- the steps types are the same -/
  stepsTypes : ∀ steps, steps ∈ r.stepsTypes ↔ steps ∈ r'.stepsTypes
  /-- and so is what they require -/
  requires : ∀ steps ∈ r.stepsTypes, ∀ action, r.Requires steps action ↔ r'.Requires steps action

/-- After a run of recordings a steps type requires what some call recorded for it. -/
theorem requires_ofRecordings :
    (ofRecordings calls).Requires steps action ↔
      ∃ c ∈ calls, c.steps = steps ∧ action ∈ c.actions := by
  rw [requires_iff, find?_ofRecordings, Recording.actionsFor]
  split
  · simp [and_assoc]
  · rename_i h
    rw [List.mem_map] at h
    refine iff_of_false List.not_mem_nil ?_
    rintro ⟨c, hc, hsteps, -⟩
    exact h ⟨c, hc, hsteps⟩

/-- Runs of recordings leave the same relation if they name the same steps types and record the same
actions types for each of them. -/
theorem sameRelation_ofRecordings
    (hsteps : ∀ steps, steps ∈ calls.map (·.steps) ↔ steps ∈ calls'.map (·.steps))
    (hactions : ∀ steps action, (∃ c ∈ calls, c.steps = steps ∧ action ∈ c.actions) ↔
      ∃ c ∈ calls', c.steps = steps ∧ action ∈ c.actions) :
    (ofRecordings calls).SameRelation (ofRecordings calls') where
  stepsTypes steps := ((listsFirsts_stepsTypes calls).mem_iff steps).trans
    ((hsteps steps).trans ((listsFirsts_stepsTypes calls').mem_iff steps).symm)
  requires steps _ action := requires_ofRecordings.trans
    ((hactions steps action).trans requires_ofRecordings.symm)

/-! ## The drawing

`Draws` says line by line what the text is, going by the relation alone. The text that is written
draws the relation, and only one text does. -/

/-- The line for a steps type. -/
def nodeLine (steps : TypeName) : String := "  \"" ++ steps.qualified ++ "\" [shape=box];\n"

/-- The line for an actions type that a steps type requires. -/
def edgeLine (steps action : TypeName) : String :=
  "  \"" ++ steps.qualified ++ "\" -> \"" ++ action.qualified ++ "\";\n"

/-- The text draws the relation: between a head and a closing line it has the line of each steps
type in strict order, and after each of them the lines of what it requires, in strict order. -/
def Draws (r : Requirements) (text : String) : Prop :=
  ∃ (steps : List TypeName) (required : TypeName → List TypeName),
    TypeName.ListsInOrder (· ∈ r.stepsTypes) steps ∧
    (∀ s ∈ steps, TypeName.ListsInOrder (r.Requires s) (required s)) ∧
    text = String.join (["digraph stepwire \x7b\n"] ++
      (steps.flatMap fun s => nodeLine s :: (required s).map (edgeLine s)) ++ ["\x7d\n"])

/-- The text that is written draws the relation. -/
theorem draws_dot (r : Requirements) : r.Draws r.dot := by
  refine ⟨TypeName.sort r.stepsTypes,
    fun s => TypeName.sortDistinct ((r.entries.find? s).getD []),
    TypeName.listsInOrder_sort r.nodup_stepsTypes, fun s _ => ?_, rfl⟩
  have h := TypeName.listsInOrder_sortDistinct ((r.entries.find? s).getD [])
  exact ⟨h.strict, fun action => (h.mem_iff action).trans requires_iff.symm⟩

example : (ofSignatures [⟨⟨"s", "Visit"⟩, [⟨"a", "Door"⟩, ⟨"a", "Bell"⟩, ⟨"a", "Door"⟩]⟩]).dot =
    String.join ["digraph stepwire \x7b\n", "  \"s.Visit\" [shape=box];\n",
      "  \"s.Visit\" -> \"a.Bell\";\n", "  \"s.Visit\" -> \"a.Door\";\n", "\x7d\n"] := by
  cbv

/-- A relation has one drawing, and the steps types and what they require are all that it shows. -/
theorem Draws.unique {text text' : String} (h : r.Draws text) (h' : r'.Draws text')
    (hsame : r.SameRelation r') : text = text' := by
  obtain ⟨steps, required, hsteps, hrequired, rfl⟩ := h
  obtain ⟨steps', required', hsteps', hrequired', rfl⟩ := h'
  obtain rfl : steps = steps' := hsteps.unique hsteps' hsame.stepsTypes
  have hlines : ∀ s ∈ steps, nodeLine s :: (required s).map (edgeLine s) =
      nodeLine s :: (required' s).map (edgeLine s) := by
    intro s hs
    have hknown : s ∈ r.stepsTypes := (hsteps.mem_iff s).1 hs
    rw [(hrequired s hs).unique (hrequired' s hs) (hsame.requires s hknown)]
  rw [List.flatMap_congr hlines]

/-- **The drawing depends on nothing but the relation**: on which steps types there are and which
actions types each of them requires, however often and in whatever order that was recorded. It lists
the steps types in strict order, each with the actions types that it requires in strict order. -/
theorem dot_draws_relation :
    (∀ r r' : Requirements, r.SameRelation r' → r.dot = r'.dot) ∧
      (∀ r : Requirements, r.Draws r.dot) ∧
      ∀ calls calls' : List Recording,
        (∀ steps, steps ∈ calls.map (·.steps) ↔ steps ∈ calls'.map (·.steps)) →
        (∀ steps action, (∃ c ∈ calls, c.steps = steps ∧ action ∈ c.actions) ↔
          ∃ c ∈ calls', c.steps = steps ∧ action ∈ c.actions) →
        (ofRecordings calls).dot = (ofRecordings calls').dot := by
  have hsame : ∀ r r' : Requirements, r.SameRelation r' → r.dot = r'.dot := fun r r' h =>
    r.draws_dot.unique r'.draws_dot h
  refine ⟨hsame, draws_dot, fun calls calls' hsteps hactions => ?_⟩
  exact hsame _ _ (sameRelation_ofRecordings hsteps hactions)

/-- Two constructors, the first of which takes an actions type twice. -/
def visitFirst : List Recording :=
  [.declare ⟨⟨"s", "Visit"⟩, [⟨"a", "Door"⟩, ⟨"a", "Bell"⟩, ⟨"a", "Door"⟩]⟩,
    .declare ⟨⟨"s", "Pay"⟩, [⟨"a", "Card"⟩]⟩]

/-- The same requirements, one by one and in turns. -/
def payFirst : List Recording :=
  [.require ⟨"s", "Pay"⟩ ⟨"a", "Card"⟩, .require ⟨"s", "Visit"⟩ ⟨"a", "Bell"⟩,
    .declare ⟨⟨"s", "Pay"⟩, []⟩, .require ⟨"s", "Visit"⟩ ⟨"a", "Door"⟩]

/-- Both leave the same relation and have the same drawing. -/
theorem visits_drawn_alike :
    (ofRecordings visitFirst).SameRelation (ofRecordings payFirst) ∧
      (ofRecordings visitFirst).dot = (ofRecordings payFirst).dot := by
  have hsteps : ∀ steps,
      steps ∈ visitFirst.map (·.steps) ↔ steps ∈ payFirst.map (·.steps) := by
    intro steps
    simp only [visitFirst, payFirst, Recording.steps, List.map_cons, List.map_nil, List.mem_cons,
      List.not_mem_nil, or_false]
    tauto
  have hactions : ∀ steps action,
      (∃ c ∈ visitFirst, c.steps = steps ∧ action ∈ c.actions) ↔
        ∃ c ∈ payFirst, c.steps = steps ∧ action ∈ c.actions := by
    intro steps action
    simp only [visitFirst, payFirst, Recording.steps, Recording.actions, List.mem_cons,
      List.not_mem_nil, or_false, exists_eq_or_imp, existsAndEq, true_and, and_false, false_or]
    tauto
  have hsame := sameRelation_ofRecordings hsteps hactions
  exact ⟨hsame, dot_draws_relation.1 _ _ hsame⟩

end Requirements

end PlatformWiring
