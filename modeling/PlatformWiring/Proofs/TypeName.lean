import Mathlib.Data.String.Basic
import PlatformWiring.TypeName

/-!
# Laws of type names

Reading cuts at the last full stop, so the simple name of a name that was read holds none,
and neither part is empty; names like that are read back from their written form. Sorting puts
the names in order, by package first, and a list without repeats in strict order.
-/

namespace PlatformWiring

/-- Texts without repeats are in strict order once they are sorted. -/
theorem Text.pairwise_lt_mergeSort {l : List String} (h : l.Nodup) :
    (l.mergeSort fun a b => decide (a ≤ b)).Pairwise (· < ·) := by
  have hle := @List.pairwise_mergeSort String (fun a b => decide (a ≤ b))
    (fun a b c hab hbc => by simp only [decide_eq_true_eq] at *; exact hab.trans hbc)
    (fun a b => by simpa using le_total a b) l
  have hne : (l.mergeSort fun a b => decide (a ≤ b)).Pairwise (· ≠ ·) :=
    (List.mergeSort_perm l _).nodup_iff.2 h
  exact (hle.and hne).imp fun hab => lt_of_le_of_ne (of_decide_eq_true hab.1) hab.2

namespace TypeName

/-- Some text is read as the name. -/
def IsRead (t : TypeName) : Prop := ∃ s, read s = .ok t

/-- What cannot be cut holds no full stop. -/
theorem splitAtLastStop_eq_none {cs : List Char} (h : splitAtLastStop cs = none) : '.' ∉ cs := by
  induction cs with
  | nil => simp
  | cons c cs ih =>
    rw [splitAtLastStop] at h
    rcases hs : splitAtLastStop cs with _ | ⟨before, after⟩
    · rw [hs] at h
      simp only at h
      split at h
      · cases h
      · rename_i hc
        rw [List.mem_cons, not_or]
        exact ⟨fun e => hc e.symm, ih hs⟩
    · simp [hs] at h

/-- The cut is at the last full stop. -/
theorem splitAtLastStop_eq_some {cs before after : List Char}
    (h : splitAtLastStop cs = some (before, after)) :
    cs = before ++ '.' :: after ∧ '.' ∉ after := by
  induction cs generalizing before with
  | nil => cases h
  | cons c cs ih =>
    rw [splitAtLastStop] at h
    rcases hs : splitAtLastStop cs with _ | ⟨before', after'⟩
    · rw [hs] at h
      simp only at h
      split at h
      · rename_i hc
        cases h
        exact ⟨by rw [hc]; rfl, splitAtLastStop_eq_none hs⟩
      · cases h
    · rw [hs] at h
      cases h
      obtain ⟨hcs, hafter⟩ := ih hs
      exact ⟨by rw [hcs]; rfl, hafter⟩

/-- A text with a full stop is cut there if none comes later. So what was written is read back. -/
theorem splitAtLastStop_append {before after : List Char} (h : '.' ∉ after) :
    splitAtLastStop (before ++ '.' :: after) = some (before, after) := by
  induction before with
  | nil =>
    rcases hs : splitAtLastStop after with _ | ⟨before', after'⟩
    · simp [splitAtLastStop, hs]
    · rw [(splitAtLastStop_eq_some hs).1] at h
      simp at h
  | cons c cs ih => simp [splitAtLastStop, ih]

/-- The characters of a qualified name: the package, a full stop, the simple name. -/
theorem toList_qualified (t : TypeName) :
    t.qualified.toList = t.package.toList ++ '.' :: t.simple.toList := by
  simp [qualified]

/-- Neither part is empty, and the simple name holds no full stop. -/
def WellFormed (t : TypeName) : Prop :=
  t.package ≠ "" ∧ t.simple ≠ "" ∧ '.' ∉ t.simple.toList

/-- A name with such parts is read from its qualified name. -/
theorem read_qualified {t : TypeName} (hpackage : t.package ≠ "") (hsimple : t.simple ≠ "")
    (hstop : '.' ∉ t.simple.toList) : read t.qualified = .ok t := by
  obtain ⟨c, cs, hc⟩ := List.exists_cons_of_ne_nil (mt String.toList_eq_nil_iff.1 hpackage)
  obtain ⟨d, ds, hd⟩ := List.exists_cons_of_ne_nil (mt String.toList_eq_nil_iff.1 hsimple)
  rw [read, toList_qualified, splitAtLastStop_append hstop, hc, hd]
  simp only [← hc, ← hd, String.ofList_toList]

/-- The name that is read from a text is the one with such parts that is written like the text. -/
theorem read_eq_ok_iff {s : String} {t : TypeName} :
    read s = .ok t ↔ t.WellFormed ∧ t.qualified = s := by
  constructor
  · intro h
    unfold read at h
    split at h
    · cases h
    · cases h
    · cases h
    · rename_i package simple hpackage hsimple hsplit
      cases h
      obtain ⟨hs, hstop⟩ := splitAtLastStop_eq_some hsplit
      refine ⟨⟨mt String.ofList_eq_empty_iff.1 hpackage, mt String.ofList_eq_empty_iff.1 hsimple,
        ?_⟩, String.toList_inj.1 ?_⟩
      · rwa [String.toList_ofList]
      · rw [toList_qualified, String.toList_ofList, String.toList_ofList, hs]
  · rintro ⟨⟨hpackage, hsimple, hstop⟩, rfl⟩
    exact read_qualified hpackage hsimple hstop

/-- Neither part of a name that was read is empty, and its simple name holds no full stop. -/
theorem IsRead.parts {t : TypeName} (h : t.IsRead) :
    t.package ≠ "" ∧ t.simple ≠ "" ∧ '.' ∉ t.simple.toList := by
  obtain ⟨s, hs⟩ := h
  exact (read_eq_ok_iff.1 hs).1

/-- A name that was read is read from its qualified name. -/
theorem IsRead.read_qualified {t : TypeName} (h : t.IsRead) : read t.qualified = .ok t :=
  TypeName.read_qualified h.parts.1 h.parts.2.1 h.parts.2.2

/-- Names that were read are told apart by their qualified names. -/
theorem IsRead.eq_of_qualified {t v : TypeName} (ht : t.IsRead) (hv : v.IsRead)
    (h : t.qualified = v.qualified) : t = v :=
  Except.ok.inj (ht.read_qualified.symm.trans ((congrArg read h).trans hv.read_qualified))

/-- The names that are read from some text are those with two such parts. This makes it decidable
whether a name can be read. -/
theorem isRead_iff {t : TypeName} :
    t.IsRead ↔ t.package ≠ "" ∧ t.simple ≠ "" ∧ '.' ∉ t.simple.toList :=
  ⟨IsRead.parts, fun ⟨hpackage, hsimple, hstop⟩ => ⟨_, read_qualified hpackage hsimple hstop⟩⟩

instance (t : TypeName) : Decidable t.IsRead := decidable_of_iff _ isRead_iff.symm

/-- Something stands before the last full stop of the text, and something after it. -/
def Divisible (s : String) : Prop :=
  ∃ before after, s.toList = before ++ '.' :: after ∧ '.' ∉ after ∧ before ≠ [] ∧ after ≠ []

/-- A text is read exactly if something stands before its last full stop and something after it. -/
theorem exists_read_iff {s : String} : (∃ t, read s = .ok t) ↔ Divisible s := by
  constructor
  · rintro ⟨t, h⟩
    obtain ⟨⟨hpackage, hsimple, hstop⟩, rfl⟩ := read_eq_ok_iff.1 h
    exact ⟨_, _, toList_qualified t, hstop, mt String.toList_eq_nil_iff.1 hpackage,
      mt String.toList_eq_nil_iff.1 hsimple⟩
  · rintro ⟨before, after, hs, hstop, hbefore, hafter⟩
    refine ⟨⟨String.ofList before, String.ofList after⟩, read_eq_ok_iff.2 ⟨⟨?_, ?_, ?_⟩, ?_⟩⟩
    · exact mt String.ofList_eq_empty_iff.1 hbefore
    · exact mt String.ofList_eq_empty_iff.1 hafter
    · rwa [String.toList_ofList]
    · rw [← String.toList_inj, toList_qualified, String.toList_ofList, String.toList_ofList, hs]

/-! ## Order

Names are ordered by package and then by simple name. The program sorts with a comparison that
answers yes or no; the relation `Before` is its strict part, and a sorted list without repeats is
strictly ordered by it. A list in strict order is known by its members, so whatever is listed in
sorted form has forgotten the order that it came in. -/

/-- `a` comes before `b`: its package does, or the package is the same and the simple name does. -/
def Before (a b : TypeName) : Prop :=
  a.package < b.package ∨ a.package = b.package ∧ a.simple < b.simple

/-- The comparison says yes to a name that comes before the other one, and to the name itself. -/
theorem le_iff {a b : TypeName} : le a b = true ↔ a.Before b ∨ a = b := by
  obtain ⟨p, s⟩ := a
  obtain ⟨q, t⟩ := b
  simp only [le, Before, Bool.or_eq_true, Bool.and_eq_true, decide_eq_true_eq, beq_iff_eq, mk.injEq]
  constructor
  · rintro (h | ⟨rfl, h⟩)
    · exact Or.inl (Or.inl h)
    · rcases lt_or_eq_of_le h with h | rfl
      · exact Or.inl (Or.inr ⟨rfl, h⟩)
      · exact Or.inr ⟨rfl, rfl⟩
  · rintro ((h | ⟨rfl, h⟩) | ⟨rfl, rfl⟩)
    · exact Or.inl h
    · exact Or.inr ⟨rfl, le_of_lt h⟩
    · exact Or.inr ⟨rfl, le_refl _⟩

/-- Coming before is transitive: packages are compared first, and where they are the same, simple
names. -/
theorem Before.trans {a b c : TypeName} (h : a.Before b) (h' : b.Before c) : a.Before c := by
  rcases h with h | ⟨he, h⟩
  · rcases h' with h' | ⟨he', -⟩
    · exact Or.inl (lt_trans h h')
    · exact Or.inl (he' ▸ h)
  · rcases h' with h' | ⟨he', h'⟩
    · exact Or.inl (he ▸ h')
    · exact Or.inr ⟨he.trans he', lt_trans h h'⟩

/-- Of two different names one comes before the other. -/
theorem before_trichotomy (a b : TypeName) : a.Before b ∨ a = b ∨ b.Before a := by
  obtain ⟨p, s⟩ := a
  obtain ⟨q, t⟩ := b
  rcases lt_trichotomy p q with h | rfl | h
  · exact Or.inl (Or.inl h)
  · rcases lt_trichotomy s t with h | rfl | h
    · exact Or.inl (Or.inr ⟨rfl, h⟩)
    · exact Or.inr (Or.inl rfl)
    · exact Or.inr (Or.inr (Or.inr ⟨rfl, h⟩))
  · exact Or.inr (Or.inr (Or.inl h))

theorem perm_sort (ts : List TypeName) : (sort ts).Perm ts := List.mergeSort_perm ts le

@[simp] theorem mem_sort {t : TypeName} {ts : List TypeName} : t ∈ sort ts ↔ t ∈ ts :=
  (perm_sort ts).mem_iff

theorem not_before_self (t : TypeName) : ¬t.Before t := by
  rintro (h | ⟨-, h⟩)
  · exact lt_irrefl _ h
  · exact lt_irrefl _ h

/-- Coming before a name or being that name is transitive. -/
theorem before_or_eq_trans {a b c : TypeName} (hab : a.Before b ∨ a = b)
    (hbc : b.Before c ∨ b = c) : a.Before c ∨ a = c := by
  rcases hab with hab | rfl
  · rcases hbc with hbc | rfl
    · exact Or.inl (hab.trans hbc)
    · exact Or.inl hab
  · exact hbc

/-- Sorted names stand in order. -/
theorem pairwise_le_sort (ts : List TypeName) :
    (sort ts).Pairwise fun a b => a.Before b ∨ a = b := by
  refine (List.pairwise_mergeSort (fun a b c hab hbc => ?_) (fun a b => ?_) ts).imp le_iff.1
  · rw [le_iff] at *
    exact before_or_eq_trans hab hbc
  · rw [Bool.or_eq_true, le_iff, le_iff]
    rcases before_trichotomy a b with h | rfl | h
    · exact Or.inl (Or.inl h)
    · exact Or.inl (Or.inr rfl)
    · exact Or.inr (Or.inl h)

/-- Names without repeats are in strict order once they are sorted. -/
theorem pairwise_before_sort {ts : List TypeName} (h : ts.Nodup) :
    (sort ts).Pairwise Before := by
  -- neighbours in order that differ are in strict order
  have hne : (sort ts).Pairwise (· ≠ ·) := (perm_sort ts).nodup_iff.2 h
  exact ((pairwise_le_sort ts).and hne).imp fun {a b} hab => hab.1.resolve_right hab.2

/-- Names in strict order are known by which names they are. -/
theorem eq_of_pairwise_before {ts ts' : List TypeName} (h : ts.Pairwise Before)
    (h' : ts'.Pairwise Before) (hmem : ∀ t, t ∈ ts ↔ t ∈ ts') : ts = ts' := by
  have hne : ∀ {a b : TypeName}, a.Before b → a ≠ b := by
    rintro a b hab rfl
    exact not_before_self a hab
  refine List.Perm.eq_of_pairwise (fun a b _ _ hab hba => ?_) h h'
    ((List.perm_ext_iff_of_nodup (h.imp hne) (h'.imp hne)).2 hmem)
  exact absurd (hab.trans hba) (not_before_self a)

/-- Sorting forgets the order that names had. -/
theorem sort_eq_of_perm {ts ts' : List TypeName} (h : ts.Perm ts') : sort ts = sort ts' := by
  refine List.Perm.eq_of_pairwise (fun a b _ _ hab hba => ?_) (pairwise_le_sort ts)
    (pairwise_le_sort ts') ((perm_sort ts).trans (h.trans (perm_sort ts').symm))
  rcases hab with hab | he
  · rcases hba with hba | he
    · exact absurd (hab.trans hba) (not_before_self a)
    · exact he.symm
  · exact he

end TypeName

end PlatformWiring
