import PlatformWiring.Proofs.Requirements

/-!
# What a run of recordings leaves

Requirements are recorded one at a time or a whole constructor at a time, in any order. What is left
is told by the calls alone: a steps type requires what was recorded for it, call after call, and the
types stand in the order in which they come first, steps types along the calls and actions types
along the entries. Nothing but these orders depends on which of two calls for different steps types
comes first.
-/

namespace PlatformWiring

/-! ## Calls

A requirement and a constructor are recorded in the same way: a steps type is named, and actions
types are put behind those it has. So a run of calls is a relation of constructors, and what is
known of these applies. -/

/-- A call that records what a steps type requires. -/
inductive Recording where
  /-- one requirement -/
  | require (steps action : TypeName)
  /-- a whole constructor -/
  | declare (d : StepsSignature)
  deriving DecidableEq, Repr

namespace Recording

/-- The steps type that the call names. -/
def steps : Recording → TypeName
  | .require steps _ => steps
  | .declare d => d.steps

/-- The actions types that the call records. -/
def actions : Recording → List TypeName
  | .require _ action => [action]
  | .declare d => d.actions

/-- The constructor with just these parameters. -/
def signature (c : Recording) : StepsSignature := ⟨c.steps, c.actions⟩

/-- The actions types that the calls record for a steps type, call after call. -/
def actionsFor (calls : List Recording) (steps : TypeName) : List TypeName :=
  (calls.filter (·.steps = steps)).flatMap (·.actions)

end Recording

namespace Requirements

variable {r r' : Requirements} {calls : List Recording}

/-- The relation after a call. -/
def record (r : Requirements) : Recording → Requirements
  | .require steps action => r.require steps action
  | .declare d => r.declare d

/-- The relation after a run of calls. -/
def ofRecordings (calls : List Recording) : Requirements := calls.foldl record empty

/-- Every call records a constructor. -/
theorem record_eq_declare (r : Requirements) (c : Recording) :
    r.record c = r.declare c.signature := by
  cases c <;> rfl

/-- A run of calls leaves what the constructors of the calls leave. -/
theorem ofRecordings_eq (calls : List Recording) :
    ofRecordings calls = ofSignatures (calls.map (·.signature)) := by
  rw [ofRecordings, ofSignatures, List.foldl_map]
  exact congrArg (fun f => calls.foldl f empty) (funext fun r => funext r.record_eq_declare)

/-! ## What is left of a run

`Recorded` says what is left in terms of the calls, look-up by look-up and order by order. The two
orders are of different kinds: steps types stand as calls first named them, while actions types
stand as they come along the entries, which are grouped by steps types. -/

/-- A steps type is known if some call named it, and then all that was recorded for it stands under
it. -/
theorem find?_ofRecordings (calls : List Recording) (steps : TypeName) :
    (ofRecordings calls).entries.find? steps =
      if steps ∈ calls.map (·.steps) then some (Recording.actionsFor calls steps) else none := by
  have hown : (calls.map (·.signature)).filter (·.steps = steps) =
      (calls.filter (·.steps = steps)).map (·.signature) := List.filter_map
  rw [ofRecordings_eq, find?_ofSignatures, hown, Recording.actionsFor]
  by_cases hmem : steps ∈ calls.map (·.steps)
  · obtain ⟨c, hc, hsteps⟩ := List.mem_map.1 hmem
    have hmem' : c ∈ calls.filter (·.steps = steps) :=
      List.mem_filter.2 ⟨hc, decide_eq_true hsteps⟩
    obtain ⟨d, own, hfilter⟩ := List.exists_cons_of_ne_nil (List.ne_nil_of_mem hmem')
    rw [if_pos hmem, hfilter]
    exact congrArg some (List.flatMap_map (·.signature) (·.actions) (d :: own))
  · have hnone : calls.filter (·.steps = steps) = [] := List.filter_eq_nil_iff.2 fun c hc h =>
      hmem (List.mem_map.2 ⟨c, hc, of_decide_eq_true h⟩)
    rw [if_neg hmem, hnone]
    rfl

/-- Steps types stand in the order in which calls first named them. By induction on the calls, from
the end. -/
theorem listsFirsts_stepsTypes (calls : List Recording) :
    ListsFirsts (calls.map (·.steps)) (ofRecordings calls).stepsTypes := by
  induction calls using List.reverseRecOn with
  | nil => exact ListsFirsts.eraseDups []
  | append_singleton calls c ih =>
    have hkeys : (ofRecordings (calls ++ [c])).stepsTypes =
        if c.steps ∈ (ofRecordings calls).stepsTypes then (ofRecordings calls).stepsTypes
        else (ofRecordings calls).stepsTypes ++ [c.steps] := by
      rw [ofRecordings, List.foldl_concat, record_eq_declare]
      exact OrderedMap.keys_alter _ _ _
    rw [List.map_append, hkeys]
    exact ih.concat c.steps

/-- What the calls leave. -/
structure Recorded (calls : List Recording) (r : Requirements) : Prop where
  /-- a steps type is known if some call named it, and it requires what the calls recorded for it -/
  requiredBy : ∀ steps, r.requiredBy steps =
    if steps ∈ calls.map (·.steps) then .ok (Recording.actionsFor calls steps)
    else .error ⟨steps⟩
  /-- there is an entry for each steps type -/
  entries : r.entries.entries = r.stepsTypes.map fun s => (s, Recording.actionsFor calls s)
  /-- the steps types stand in the order in which calls first named them -/
  stepsTypes : ListsFirsts (calls.map (·.steps)) r.stepsTypes
  /-- the actions types stand in the order in which they first come along the entries -/
  actionsTypes : ListsFirsts (r.entries.entries.flatMap (·.2)) r.actionsTypes

/-- All of this holds of the relation that a run leaves. -/
theorem recorded_ofRecordings (calls : List Recording) : Recorded calls (ofRecordings calls) where
  requiredBy steps := by
    rw [Requirements.requiredBy, find?_ofRecordings]
    by_cases h : steps ∈ calls.map (·.steps)
    · rw [if_pos h, if_pos h]
    · rw [if_neg h, if_neg h]
  entries := by
    rw [stepsTypes, OrderedMap.keys, List.map_map]
    refine (List.map_id _).symm.trans (List.map_congr_left fun e he => ?_)
    have hfind := OrderedMap.mem_entries_iff.1 he
    rw [find?_ofRecordings] at hfind
    split at hfind
    · exact Prod.ext rfl (Option.some.inj hfind).symm
    · cases hfind
  stepsTypes := listsFirsts_stepsTypes calls
  actionsTypes := ListsFirsts.eraseDups _

/-! ## A constructor and its parameters

A constructor with several parameters is the same as one without any, which makes the steps type
known, followed by its parameters one by one. Without the first part a constructor that takes
nothing would leave no trace. -/

/-- Recording twice for one steps type is recording once, both lists one behind the other. -/
theorem extend_extend (r : Requirements) (steps : TypeName) (before after : List TypeName) :
    (r.extend steps before).extend steps after = r.extend steps (before ++ after) := by
  rw [extend, extend, extend, OrderedMap.alter_alter]
  simp only [Option.getD_some, List.append_assoc]

/-- Recording a constructor is mentioning its type and then recording parameter after parameter. -/
theorem declare_eq_foldl_require (r : Requirements) (steps : TypeName) (actions : List TypeName) :
    r.declare ⟨steps, actions⟩ = actions.foldl (·.require steps ·) (r.declare ⟨steps, []⟩) := by
  have hfoldl : ∀ before, actions.foldl (·.require steps ·) (r.extend steps before) =
      r.extend steps (before ++ actions) := by
    induction actions with
    | nil => simp
    | cons action actions ih =>
      intro before
      rw [List.foldl_cons, require, extend_extend, ih, List.append_assoc, List.singleton_append]
  exact (hfoldl []).symm

/-! ## Calls that change places

Calls for different steps types write under different keys, so no look-up notices in which order
they came. What changes is the order in which types are listed. -/

/-- Relations that agree have the same entries, in an order of their own. -/
theorem Agrees.perm_entries (h : r.Agrees r') : r.entries.entries.Perm r'.entries.entries := by
  refine (List.perm_ext_iff_of_nodup ?_ ?_).2 fun ⟨steps, actions⟩ => ?_
  · exact List.Nodup.of_map _ r.entries.nodup_keys
  · exact List.Nodup.of_map _ r'.entries.nodup_keys
  · rw [OrderedMap.mem_entries_iff, OrderedMap.mem_entries_iff, h steps]

/-- Calls for different steps types may change places. -/
theorem agrees_swap {before after : List Recording} {c d : Recording} (h : c.steps ≠ d.steps) :
    (ofRecordings (before ++ c :: d :: after)).Agrees
      (ofRecordings (before ++ d :: c :: after)) := by
  rw [ofRecordings_eq, ofRecordings_eq]
  refine agrees_ofSignatures fun steps => ?_
  rw [List.map_append, List.map_append, List.filter_append, List.filter_append,
    List.append_cancel_left_eq]
  by_cases hc : c.steps = steps
  · have hd : d.steps ≠ steps := fun e => h (hc.trans e.symm)
    simp [Recording.signature, hc, hd]
  · simp [Recording.signature, List.filter_cons, hc]

/-- Relations that tell the same, apart from the order in which they list it. -/
structure Alike (r r' : Requirements) : Prop where
  /-- every look-up gives the same -/
  requiredBy : ∀ steps, r.requiredBy steps = r'.requiredBy steps
  /-- the entries are the same -/
  entries : r.entries.entries.Perm r'.entries.entries
  /-- and so are the steps types -/
  stepsTypes : r.stepsTypes.Perm r'.stepsTypes
  /-- and the actions types -/
  actionsTypes : r.actionsTypes.Perm r'.actionsTypes

/-- All that is said of them can be told from look-ups. -/
theorem Agrees.alike (h : r.Agrees r') : r.Alike r' :=
  ⟨h.requiredBy_eq, h.perm_entries, h.perm_stepsTypes, h.perm_actionsTypes⟩

/-- **A run of recordings loses nothing, merges nothing and reorders nothing**: what is left is told
by the calls, a constructor stands for its parameters one after the other, and calls for different
steps types may change places. -/
theorem ofRecordings_faithful (calls : List Recording) :
    Recorded calls (ofRecordings calls) ∧
      (∀ steps actions, (ofRecordings calls).declare ⟨steps, actions⟩ =
        actions.foldl (·.require steps ·) ((ofRecordings calls).declare ⟨steps, []⟩)) ∧
      ∀ before c d after, calls = before ++ c :: d :: after → c.steps ≠ d.steps →
        (ofRecordings calls).Alike (ofRecordings (before ++ d :: c :: after)) := by
  refine ⟨recorded_ofRecordings calls, declare_eq_foldl_require _, ?_⟩
  rintro before c d after rfl h
  exact (agrees_swap h).alike

/-- A requirement and a constructor for two steps types change places; a third call adds to the
constructor. -/
theorem visit_recordings_interchanged :
    (Recording.require ⟨"s", "Pay"⟩ ⟨"a", "Card"⟩).steps ≠
        (Recording.declare ⟨⟨"s", "Visit"⟩, [⟨"a", "Door"⟩]⟩).steps ∧
      (ofRecordings [.require ⟨"s", "Pay"⟩ ⟨"a", "Card"⟩,
          .declare ⟨⟨"s", "Visit"⟩, [⟨"a", "Door"⟩]⟩,
          .require ⟨"s", "Visit"⟩ ⟨"a", "Door"⟩]).Alike
        (ofRecordings [.declare ⟨⟨"s", "Visit"⟩, [⟨"a", "Door"⟩]⟩,
          .require ⟨"s", "Pay"⟩ ⟨"a", "Card"⟩,
          .require ⟨"s", "Visit"⟩ ⟨"a", "Door"⟩]) :=
  ⟨by decide, (ofRecordings_faithful _).2.2 [] _ _ [.require ⟨"s", "Visit"⟩ ⟨"a", "Door"⟩] rfl
    (by decide)⟩

end Requirements

end PlatformWiring
