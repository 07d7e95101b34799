/-!
# Maps in insertion order

A finite map that remembers the order in which its keys first appeared. Updating a key
leaves it where it stands, a new key goes to the end, and erasing a key closes the gap.
No key occurs twice, which is part of the type.
-/

namespace PlatformWiring

universe u v

/-- A finite map whose entries stand in the order of their first insertion. -/
structure OrderedMap (κ : Type u) (α : Type v) where
  /-- the entries, oldest key first -/
  entries : List (κ × α)
  /-- no key occurs twice -/
  nodup_keys : (entries.map Prod.fst).Nodup

namespace OrderedMap

variable {κ : Type u} {α : Type v}

/-- The map without entries. -/
def empty : OrderedMap κ α := ⟨[], List.nodup_nil⟩

instance : EmptyCollection (OrderedMap κ α) := ⟨empty⟩

instance : Inhabited (OrderedMap κ α) := ⟨empty⟩

/-- The keys, oldest first. -/
def keys (m : OrderedMap κ α) : List κ := m.entries.map Prod.fst

/-- The values, in the order of their keys. -/
def values (m : OrderedMap κ α) : List α := m.entries.map Prod.snd

/-- The number of keys. -/
def size (m : OrderedMap κ α) : Nat := m.entries.length

/-- The map has no entries. -/
def isEmpty (m : OrderedMap κ α) : Bool := m.entries.isEmpty

variable [DecidableEq κ]

/-- The value at a key. -/
def find? (m : OrderedMap κ α) (k : κ) : Option α :=
  (m.entries.find? (·.1 = k)).map Prod.snd

/-- The key has a value. -/
def contains (m : OrderedMap κ α) (k : κ) : Bool := (m.find? k).isSome

/-- `f` applied to the value at `k`; a missing key is added at the end with `f none`. -/
def alterEntries (k : κ) (f : Option α → α) : List (κ × α) → List (κ × α)
  | [] => [(k, f none)]
  | (k', a) :: rest =>
    if k' = k then (k', f (some a)) :: rest else (k', a) :: alterEntries k f rest

/-- Altering keeps every key in place and adds at most the altered one. -/
theorem keys_alterEntries (k : κ) (f : Option α → α) (l : List (κ × α)) :
    (alterEntries k f l).map Prod.fst =
      if k ∈ l.map Prod.fst then l.map Prod.fst else l.map Prod.fst ++ [k] := by
  induction l with
  | nil => simp [alterEntries]
  | cons e rest ih =>
    obtain ⟨k', a⟩ := e
    by_cases h : k' = k
    · simp [alterEntries, h]
    · have h' : k ≠ k' := fun e => h e.symm
      by_cases hk : k ∈ rest.map Prod.fst
      · rw [if_pos hk] at ih
        simp only [alterEntries, h, if_false, List.map_cons, ih]
        rw [if_pos (List.mem_cons_of_mem _ hk)]
      · rw [if_neg hk] at ih
        simp only [alterEntries, h, if_false, List.map_cons, ih]
        rw [if_neg (by simp only [List.mem_cons, not_or]; exact ⟨h', hk⟩)]
        rfl

/-- The map with the value at `k` replaced by what `f` makes of it. -/
def alter (m : OrderedMap κ α) (k : κ) (f : Option α → α) : OrderedMap κ α where
  entries := alterEntries k f m.entries
  nodup_keys := by
    rw [keys_alterEntries]
    split
    · exact m.nodup_keys
    · rename_i h
      refine List.nodup_append.2 ⟨m.nodup_keys, by simp, ?_⟩
      intro a ha b hb
      simp only [List.mem_singleton] at hb
      subst hb
      exact fun e => h (e ▸ ha)

/-- The map with `a` at `k`. -/
def insert (m : OrderedMap κ α) (k : κ) (a : α) : OrderedMap κ α := m.alter k fun _ => a

/-- The map without the key `k`. -/
def erase (m : OrderedMap κ α) (k : κ) : OrderedMap κ α where
  entries := m.entries.filter (·.1 ≠ k)
  nodup_keys := m.nodup_keys.sublist (List.filter_sublist.map _)

end OrderedMap

end PlatformWiring
