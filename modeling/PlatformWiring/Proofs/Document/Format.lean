import PlatformWiring.Document.Format
import PlatformWiring.Proofs.Except

/-!
# Records and lists of a schema

What holds of everything that a schema is read from holds of what is read: of every item of a
list, of a value that may be absent, and of a record if no field that is set spoils it. For a
record the names that were given are part of the property, since a field that has to be given
starts with a value that only stands in for it.

Plain values are read as they were put together.
-/

namespace PlatformWiring

variable {ν ε σ α : Type}

/-- If whatever is read from an item has a property, then so has everything that is read from a run
of items. -/
theorem Run.forall_of_readAll {read : ν → Except ε α} {P : α → Prop}
    (hread : ∀ v a, read v = .ok a → P a) {run : Run ε ν} {as : List α}
    (h : run.readAll read = .ok as) : ∀ a ∈ as, P a := by
  induction run generalizing as with
  | done =>
    cases h
    simp
  | broken fault => cases h
  | next v rest ih =>
    rw [readAll] at h
    split at h
    · cases h
    · rename_i a ha
      obtain ⟨as', has', rfl⟩ := map_eq_ok_iff.1 h
      rw [List.forall_mem_cons]
      exact ⟨hread v a ha, ih has'⟩

namespace Format

variable {f : Format ν ε} {read : ν → Except ε α} {P : α → Prop} {v : ν}

/-- The same for the items of a list in a document. -/
theorem forall_of_list (hread : ∀ v a, read v = .ok a → P a) {as : List α}
    (h : f.list read v = .ok as) : ∀ a ∈ as, P a := by
  rw [list] at h
  split at h
  · cases h
  · exact Run.forall_of_readAll hread h

/-- And for a value that may be absent, in which case there is nothing to show. -/
theorem forall_of_optional (hread : ∀ v a, read v = .ok a → P a) {a? : Option α}
    (h : f.optional read v = .ok a?) : ∀ a ∈ a?, P a := by
  rw [optional] at h
  split at h
  · cases h
    simp
  · obtain ⟨a, ha, rfl⟩ := map_eq_ok_iff.1 h
    rintro b ⟨⟩
    exact hread _ _ ha

/-! ## Records

A record is read field by field into a value that starts with stand-ins. The property that is
carried along speaks of the value and of the names that were given so far. In the end the required
names are among these, and then no stand-in is left. -/

variable {slots : List (FieldSlot ν ε σ)} {absent : Nat → String → ε} {given : List String}
  {s s' : σ}

/-- No field is reported as absent exactly if every required one was given. -/
theorem absentFrom_eq_none_iff (i : Nat) :
    absentFrom given i slots = none ↔ ∀ slot ∈ slots, slot.required → slot.name ∈ given := by
  induction slots generalizing i with
  | nil => simp [absentFrom]
  | cons slot slots ih =>
    rw [absentFrom, List.forall_mem_cons, ← ih (i + 1)]
    by_cases hslot : slot.required ∧ slot.name ∉ given
    · simp [hslot]
    · rw [if_neg hslot]
      rw [not_and, Decidable.not_not] at hslot
      exact ⟨fun h => ⟨hslot, h⟩, fun h => h.2⟩

/-- What every field keeps holds of the record in the end, and then the required fields were given.
By induction on the run of fields that the document gives. -/
theorem setAll_induction {P : List String → σ → Prop}
    (hset : ∀ slot ∈ slots, ∀ given s v s', P given s → slot.set s v = .ok s' →
      P (slot.name :: given) s')
    {run : Run ε (String × ν)} (hstart : P given s)
    (h : f.setAll slots absent given s run = .ok s') :
    ∃ given', P given' s' ∧ ∀ slot ∈ slots, slot.required → slot.name ∈ given' := by
  induction run generalizing given s with
  | done =>
    rw [setAll] at h
    split at h
    · cases h
    · rename_i habsent
      cases h
      exact ⟨given, hstart, (absentFrom_eq_none_iff 0).1 habsent⟩
  | broken fault => cases h
  | next entry rest ih =>
    obtain ⟨name, v⟩ := entry
    rw [setAll] at h
    split at h
    · cases h
    · rename_i slot hslot
      split at h
      · cases h
      · split at h
        · cases h
        · rename_i next hnext
          have hname : slot.name = name := by simpa using List.find?_some hslot
          exact ih (hname ▸ hset slot (List.mem_of_find?_eq_some hslot) _ _ _ _ hstart hnext) h

/-- The same for a whole record. All that is said about decoded documents is proved with this
principle, each schema giving its own property. -/
theorem record_induction {P : List String → σ → Prop} {shape : String} {start : σ}
    (h : f.record shape slots start v = .ok s) (hstart : P [] start)
    (hset : ∀ slot ∈ slots, ∀ given s v s', P given s → slot.set s v = .ok s' →
      P (slot.name :: given) s') :
    ∃ given, P given s ∧ ∀ slot ∈ slots, slot.required → slot.name ∈ given := by
  rw [record] at h
  split at h
  · cases h
  · exact setAll_induction hset hstart h

end Format

end PlatformWiring
