import Mathlib.Data.List.Nodup
import PlatformWiring.OrderedMap

/-!
# Laws of maps in insertion order

An entry is what looking up its key finds, and looking up a key after `alter` or `erase`
tells everything about both operations except for the order of the keys. The order is kept:
a new key goes to the end.
-/

namespace PlatformWiring

namespace OrderedMap

universe u v

variable {κ : Type u} {α : Type v}

/-- Maps with the same entries in the same order are equal. -/
theorem ext_entries {m m' : OrderedMap κ α} (h : m.entries = m'.entries) : m = m' := by
  cases m; cases m'
  subst h
  rfl

@[simp] theorem entries_empty : (∅ : OrderedMap κ α).entries = [] := rfl

@[simp] theorem keys_empty : (∅ : OrderedMap κ α).keys = [] := rfl

variable [DecidableEq κ]

@[simp] theorem find?_empty (k : κ) : (∅ : OrderedMap κ α).find? k = none := rfl

/-! ## Entries and look-ups

A map is a list of entries and a proof that no key occurs twice. So the list can be asked by
membership and by look-up, and both say the same. -/

/-- Since no key occurs twice, an entry is what looking up its key finds. -/
theorem mem_entries_iff {m : OrderedMap κ α} {k : κ} {a : α} :
    (k, a) ∈ m.entries ↔ m.find? k = some a := by
  obtain ⟨l, hl⟩ := m
  simp only [find?]
  induction l with
  | nil => simp
  | cons e rest ih =>
    obtain ⟨k', a'⟩ := e
    rw [List.map_cons, List.nodup_cons] at hl
    rw [List.mem_cons, List.find?_cons]
    by_cases hk : k' = k
    · subst hk
      have hrest : (k', a) ∉ rest := fun h => hl.1 (List.mem_map.2 ⟨(k', a), h, rfl⟩)
      simp [hrest, eq_comm]
    · have hk' : k ≠ k' := fun h => hk h.symm
      simp [hk, hk', ih hl.2]

/-- A key is listed exactly if it has a value. -/
theorem mem_keys_iff {m : OrderedMap κ α} {k : κ} : k ∈ m.keys ↔ ∃ a, m.find? k = some a := by
  simp only [keys, List.mem_map, Prod.exists, exists_and_right, exists_eq_right]
  exact ⟨fun ⟨a, h⟩ => ⟨a, mem_entries_iff.1 h⟩, fun ⟨a, h⟩ => ⟨a, mem_entries_iff.2 h⟩⟩

/-- A value is listed exactly if some key has it. -/
theorem mem_values_iff {m : OrderedMap κ α} {a : α} : a ∈ m.values ↔ ∃ k, m.find? k = some a := by
  simp only [values, List.mem_map, Prod.exists, exists_eq_right]
  exact ⟨fun ⟨k, h⟩ => ⟨k, mem_entries_iff.1 h⟩, fun ⟨k, h⟩ => ⟨k, mem_entries_iff.2 h⟩⟩

/-! ## Altering and erasing

Each operation is told by what a look-up finds afterwards, at the key itself and at any other one.
That is all as far as the values go. The order of the keys is told apart, since few results depend
on it. -/

/-- Altering changes what is found at the altered key and nothing else. -/
theorem find?_alter (m : OrderedMap κ α) (k k' : κ) (f : Option α → α) :
    (m.alter k f).find? k' = if k' = k then some (f (m.find? k)) else m.find? k' := by
  obtain ⟨l, hl⟩ := m
  simp only [find?, alter]
  clear hl
  induction l with
  | nil =>
    by_cases h : k' = k
    · simp [alterEntries, h]
    · have h' : ¬k = k' := fun e => h e.symm
      simp [alterEntries, h, h']
  | cons e rest ih =>
    obtain ⟨k₀, a⟩ := e
    by_cases h₀ : k₀ = k
    · subst h₀
      by_cases h : k' = k₀
      · simp [alterEntries, h]
      · have h' : ¬k₀ = k' := fun e => h e.symm
        simp [alterEntries, h, h']
    · by_cases h : k₀ = k'
      · subst h
        simp [alterEntries, h₀]
      · simp only [alterEntries, h₀, if_false, List.find?_cons, h, decide_false]
        exact ih

/-- Altering a new key adds an entry at the end. -/
theorem entries_alter_of_not_mem {m : OrderedMap κ α} {k : κ} (h : k ∉ m.keys)
    (f : Option α → α) : (m.alter k f).entries = m.entries ++ [(k, f none)] := by
  obtain ⟨l, hl⟩ := m
  simp only [alter, keys] at h ⊢
  clear hl
  induction l with
  | nil => rfl
  | cons e rest ih =>
    obtain ⟨k', a⟩ := e
    rw [List.map_cons, List.mem_cons, not_or] at h
    have hk : ¬k' = k := fun e => h.1 e.symm
    simp only [alterEntries, hk, if_false, ih h.2, List.cons_append]

/-- Altering a key twice is altering it once. -/
theorem alter_alter (m : OrderedMap κ α) (k : κ) (f g : Option α → α) :
    (m.alter k f).alter k g = m.alter k fun old => g (some (f old)) := by
  obtain ⟨l, hl⟩ := m
  apply ext_entries
  simp only [alter]
  clear hl
  induction l with
  | nil => simp [alterEntries]
  | cons e rest ih =>
    obtain ⟨k', a⟩ := e
    by_cases h : k' = k
    · simp [alterEntries, h]
    · simp only [alterEntries, h, if_false, ih]

/-- A known key keeps its place, and a new one goes to the end. -/
theorem keys_alter (m : OrderedMap κ α) (k : κ) (f : Option α → α) :
    (m.alter k f).keys = if k ∈ m.keys then m.keys else m.keys ++ [k] :=
  keys_alterEntries k f m.entries

/-- Erasing a key makes it unknown and changes nothing else. -/
theorem find?_erase (m : OrderedMap κ α) (k k' : κ) :
    (m.erase k).find? k' = if k' = k then none else m.find? k' := by
  simp only [find?, erase, List.find?_filter]
  by_cases h : k' = k
  · subst h
    simp
  · rw [if_neg h]
    congr 2
    funext e
    by_cases he : e.1 = k'
    · have : ¬e.1 = k := fun e' => h (he.symm.trans e')
      simp [he, h]
    · simp [he]

end OrderedMap

end PlatformWiring
