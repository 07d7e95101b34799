import Mathlib.Data.List.Induction
import PlatformWiring.Proofs.OrderedMap
import PlatformWiring.Requirements

/-!
# What the relation lists

The lists of steps types and of actions types hold each type once, where it comes first, and they
hold the types that a look-up tells about. What a steps type requires is what its own constructors
take, one after the other, whatever stands between them. Relations in which every look-up gives the
same have the same types, in an order of their own.
-/

namespace PlatformWiring

/-! ## First occurrences

Types are listed where they come first. `ListsFirsts` says that of a list without saying how it was
made: it has no repeats, it has the members of the walk, and it is ordered by the places in the
walk. All of it is kept by one more step at the end of the walk, which is how the lists grow. -/

/-- `firsts` lists what comes along `walk`, each thing once. -/
structure ListsFirsts {α : Type} [DecidableEq α] (walk firsts : List α) : Prop where
  /-- nothing is listed twice -/
  nodup : firsts.Nodup
  /-- all that comes along is listed, and nothing else -/
  mem_iff : ∀ a, a ∈ firsts ↔ a ∈ walk
  /-- what is listed stands in the order in which it comes first -/
  ordered : firsts.Pairwise fun a b => walk.idxOf a < walk.idxOf b

namespace ListsFirsts

variable {α : Type} [DecidableEq α] {walk firsts : List α}

/-- One more thing comes along: it goes to the end if it is new. -/
theorem concat (h : ListsFirsts walk firsts) (a : α) :
    ListsFirsts (walk ++ [a]) (if a ∈ firsts then firsts else firsts ++ [a]) := by
  have hbefore : ∀ b ∈ firsts, (walk ++ [a]).idxOf b = walk.idxOf b := fun b hb =>
    List.idxOf_append_of_mem ((h.mem_iff b).1 hb)
  have hordered : firsts.Pairwise fun b c => (walk ++ [a]).idxOf b < (walk ++ [a]).idxOf c :=
    h.ordered.imp_of_mem fun {b c} hb hc hlt => by rwa [hbefore b hb, hbefore c hc]
  split
  · rename_i ha
    refine ⟨h.nodup, fun b => ?_, hordered⟩
    rw [List.mem_append, List.mem_singleton, h.mem_iff]
    exact ⟨Or.inl, fun hb => hb.elim id fun e => e ▸ (h.mem_iff a).1 ha⟩
  · rename_i ha
    refine ⟨?_, fun b => ?_, ?_⟩
    · rw [List.nodup_append]
      exact ⟨h.nodup, List.nodup_singleton a, fun b hb c hc e =>
        ha ((List.mem_singleton.1 hc) ▸ e ▸ hb)⟩
    · rw [List.mem_append, List.mem_append, h.mem_iff]
    · refine List.pairwise_append.2 ⟨hordered, List.pairwise_singleton _ a, fun b hb c hc => ?_⟩
      rw [List.mem_singleton.1 hc, hbefore b hb,
        List.idxOf_append_of_notMem (mt (h.mem_iff a).2 ha)]
      exact Nat.lt_add_right _ (List.idxOf_lt_length_iff.2 ((h.mem_iff b).1 hb))

/-- Erasing later repeats lists the first occurrences. -/
theorem eraseDups (l : List α) : ListsFirsts l l.eraseDups := by
  induction l using List.reverseRecOn with
  | nil => exact ⟨List.nodup_nil, fun a => by simp, List.Pairwise.nil⟩
  | append_singleton l a ih =>
    have hlast : (l ++ [a]).eraseDups =
        if a ∈ l.eraseDups then l.eraseDups else l.eraseDups ++ [a] := by
      rw [List.eraseDups_append]
      by_cases ha : a ∈ l <;> simp [List.removeAll, List.eraseDups_cons, ha]
    rw [hlast]
    exact ih.concat a

end ListsFirsts

/-- Without later repeats nothing is repeated. -/
theorem nodup_eraseDups {α : Type} [DecidableEq α] (l : List α) : l.eraseDups.Nodup :=
  (ListsFirsts.eraseDups l).nodup

namespace Requirements

variable {r : Requirements} {steps action : TypeName} {actions : List TypeName}

/-- What a steps type requires is what stands under it in the relation. -/
theorem requiredBy_eq_ok_iff :
    r.requiredBy steps = .ok actions ↔ r.entries.find? steps = some actions := by
  rw [requiredBy]
  cases r.entries.find? steps <;> simp

/-- The steps types are those that a look-up knows. -/
theorem mem_stepsTypes : steps ∈ r.stepsTypes ↔ ∃ actions, r.requiredBy steps = .ok actions := by
  simp only [stepsTypes, OrderedMap.mem_keys_iff, requiredBy_eq_ok_iff]

/-- No steps type is listed twice, for they are the keys of a map. -/
theorem nodup_stepsTypes (r : Requirements) : r.stepsTypes.Nodup := r.entries.nodup_keys

/-- The actions types are those that some steps type requires. -/
theorem mem_actionsTypes : action ∈ r.actionsTypes ↔
    ∃ steps actions, r.requiredBy steps = .ok actions ∧ action ∈ actions := by
  simp only [actionsTypes, List.mem_eraseDups, List.mem_flatten, OrderedMap.mem_values_iff,
    requiredBy_eq_ok_iff]
  constructor
  · rintro ⟨actions, ⟨steps, h⟩, ha⟩
    exact ⟨steps, actions, h, ha⟩
  · rintro ⟨steps, actions, h, ha⟩
    exact ⟨actions, ⟨steps, h⟩, ha⟩

/-- No actions type is listed twice, however many steps types require it. -/
theorem nodup_actionsTypes (r : Requirements) : r.actionsTypes.Nodup := nodup_eraseDups _

/-- The size is the number of steps types. -/
theorem length_stepsTypes (r : Requirements) : r.stepsTypes.length = r.size := List.length_map _

/-- A relation is empty if it knows no steps type. -/
theorem isEmpty_eq_decide (r : Requirements) : r.isEmpty = decide (r.size = 0) := by
  rw [isEmpty, size, OrderedMap.isEmpty, OrderedMap.size]
  cases r.entries.entries <;> rfl

/-! ## Look-ups in a relation of constructors

A constructor adds its parameters at the end of what its steps type requires and changes nothing
else. So after many constructors a look-up finds what those of the one steps type have taken, and
the others can be left out. -/

/-- What is found after one constructor. -/
theorem find?_declare (r : Requirements) (d : StepsSignature) (steps : TypeName) :
    (r.declare d).entries.find? steps =
      if steps = d.steps then some ((r.entries.find? steps).getD [] ++ d.actions)
      else r.entries.find? steps := by
  rw [declare, extend, OrderedMap.find?_alter]
  by_cases h : steps = d.steps
  · rw [if_pos h, if_pos h, h]
  · rw [if_neg h, if_neg h]

/-- What is found after several of them. By induction on the constructors, the relation before them
generalized. -/
theorem find?_foldl_declare (r : Requirements) (ds : List StepsSignature) (steps : TypeName) :
    (ds.foldl declare r).entries.find? steps =
      match ds.filter (·.steps = steps) with
      | [] => r.entries.find? steps
      | own => some ((r.entries.find? steps).getD [] ++ own.flatMap (·.actions)) := by
  induction ds generalizing r with
  | nil => rfl
  | cons d ds ih =>
    rw [List.foldl_cons, ih, find?_declare, List.filter_cons]
    by_cases h : d.steps = steps
    · rw [if_pos h.symm, if_pos (decide_eq_true h)]
      simp only [Option.getD_some, List.append_assoc, List.flatMap_cons]
      generalize ds.filter (·.steps = steps) = own
      cases own with
      | nil => simp
      | cons e own => rfl
    · rw [if_neg (Ne.symm h), if_neg (by simpa using h)]

/-- A steps type requires what its own constructors take, in their order. -/
theorem find?_ofSignatures (ds : List StepsSignature) (steps : TypeName) :
    (ofSignatures ds).entries.find? steps =
      match ds.filter (·.steps = steps) with
      | [] => none
      | own => some (own.flatMap (·.actions)) :=
  find?_foldl_declare empty ds steps

/-! ## Relations that agree

Look-ups tell everything about a relation except the order of its steps types. Relations that agree
on them list the same types, in an order of their own; sorted, they cannot be told apart. This is
what makes the outcome of a round independent of the order in which steps types are declared. -/

/-- Every look-up gives the same. -/
def Agrees (r r' : Requirements) : Prop :=
  ∀ steps, r.entries.find? steps = r'.entries.find? steps

/-- Relations agree if the constructors of each steps type come in the same order. -/
theorem agrees_ofSignatures {ds ds' : List StepsSignature}
    (h : ∀ steps, ds.filter (·.steps = steps) = ds'.filter (·.steps = steps)) :
    (ofSignatures ds).Agrees (ofSignatures ds') := by
  intro steps
  rw [find?_ofSignatures, find?_ofSignatures, h]

namespace Agrees

variable {r' : Requirements} (h : r.Agrees r')

include h

/-- They answer the question for a steps type alike, in the error too. -/
theorem requiredBy_eq (steps : TypeName) : r.requiredBy steps = r'.requiredBy steps := by
  rw [requiredBy, requiredBy, h steps]

theorem perm_stepsTypes : r.stepsTypes.Perm r'.stepsTypes := by
  refine (List.perm_ext_iff_of_nodup r.nodup_stepsTypes r'.nodup_stepsTypes).2 fun steps => ?_
  simp only [mem_stepsTypes, h.requiredBy_eq]

theorem perm_actionsTypes : r.actionsTypes.Perm r'.actionsTypes := by
  refine (List.perm_ext_iff_of_nodup r.nodup_actionsTypes r'.nodup_actionsTypes).2
    fun action => ?_
  simp only [mem_actionsTypes, h.requiredBy_eq]

theorem size_eq : r.size = r'.size := by
  rw [← length_stepsTypes, ← length_stepsTypes, h.perm_stepsTypes.length_eq]

theorem isEmpty_eq : r.isEmpty = r'.isEmpty := by
  rw [isEmpty_eq_decide, isEmpty_eq_decide, h.size_eq]

end Agrees

end Requirements

end PlatformWiring
