import PlatformWiring.Proofs.Wiring.Coherence

/-!
# Ambiguous names

Accessors and parameters are named after types, and what is named after the types of a relation
is ambiguous if two of them get the same name in one scope. That is the only reason why the
wiring of a relation cannot be planned.
-/

namespace PlatformWiring

/-- Derived names of one scope are the same. -/
inductive Requirements.Ambiguous (r : Requirements) : Prop where
  /-- two actions types have the same accessor -/
  | actions {a b : TypeName} (ha : a ∈ r.actionsTypes) (hb : b ∈ r.actionsTypes) (hne : a ≠ b)
      (h : a.accessor = b.accessor)
  /-- two steps types have the same accessor -/
  | steps {a b : TypeName} (ha : a ∈ r.stepsTypes) (hb : b ∈ r.stepsTypes) (hne : a ≠ b)
      (h : a.accessor = b.accessor)
  /-- two parameters of a constructor have the same name; they may be of one type -/
  | parameters {steps : TypeName} {actions : List TypeName}
      (hrequired : r.requiredBy steps = .ok actions) (h : ¬(actions.map (·.accessor)).Nodup)

namespace Requirements

/-- Different types have different names unless two of them have the same. -/
theorem nodup_map_accessor_iff {types : List TypeName} (hnodup : types.Nodup) :
    (types.map (·.accessor)).Nodup ↔
      ¬∃ a ∈ types, ∃ b ∈ types, a ≠ b ∧ a.accessor = b.accessor := by
  rw [List.nodup_map_iff_inj_on hnodup]
  constructor
  · rintro h ⟨a, ha, b, hb, hne, he⟩
    exact hne (h a ha b hb he)
  · intro h a ha b hb he
    by_contra hne
    exact h ⟨a, ha, b, hb, hne, he⟩

/-- Nothing is ambiguous exactly if the names in each scope are different. In the first two scopes
the types are, so only their names have to be compared; in a constructor a type may come twice. -/
theorem not_ambiguous_iff {r : Requirements} : ¬r.Ambiguous ↔
    (r.actionsTypes.map (·.accessor)).Nodup ∧ (r.stepsTypes.map (·.accessor)).Nodup ∧
      ∀ steps actions, r.requiredBy steps = .ok actions → (actions.map (·.accessor)).Nodup := by
  rw [nodup_map_accessor_iff r.nodup_actionsTypes, nodup_map_accessor_iff r.nodup_stepsTypes]
  constructor
  · intro h
    refine ⟨?_, ?_, fun steps actions hrequired => ?_⟩
    · rintro ⟨a, ha, b, hb, hne, he⟩
      exact h (.actions ha hb hne he)
    · rintro ⟨a, ha, b, hb, hne, he⟩
      exact h (.steps ha hb hne he)
    · by_contra hnodup
      exact h (.parameters hrequired hnodup)
  · rintro ⟨hactions, hsteps, hparameters⟩ h
    cases h with
    | actions ha hb hne he => exact hactions ⟨_, ha, _, hb, hne, he⟩
    | steps ha hb hne he => exact hsteps ⟨_, ha, _, hb, hne, he⟩
    | parameters hrequired hnodup => exact hnodup (hparameters _ _ hrequired)

end Requirements

namespace Layout

variable {l : Layout} {platforms : Selection} {r : Requirements}

/-- Planning that fails reports what collides in its lists. -/
theorem eq_collisions_of_plan {signatures : List StepsSignature} {e : PlanError}
    (hsignatures : r.sortedSignatures = .ok signatures) (h : l.plan platforms r = .error e) :
    e = .collisions (Collision.all r.sortedActions signatures) := by
  rw [plan, hsignatures] at h
  simp only at h
  split at h
  · cases h
  · cases h
    rfl

/-- Planning knows every steps type that it asks for, so it can only fail over names. -/
theorem exists_collisions_of_plan {e : PlanError} (h : l.plan platforms r = .error e) :
    ∃ found, e = .collisions found := by
  obtain ⟨signatures, hsignatures⟩ := r.exists_sortedSignatures
  exact ⟨_, eq_collisions_of_plan hsignatures h⟩

/-- Planning fails exactly if names are ambiguous. -/
theorem exists_plan_error_iff : (∃ e, l.plan platforms r = .error e) ↔ r.Ambiguous := by
  rw [← not_iff_not, Requirements.not_ambiguous_iff, ← @exists_plan_iff l platforms r]
  rcases l.plan platforms r with e | units <;> simp

end Layout

end PlatformWiring
