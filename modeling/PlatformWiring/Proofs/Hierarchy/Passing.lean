import PlatformWiring.Proofs.Hierarchy.Resolution

/-!
# Where the climb and the levels part

A hierarchy begins with a climb along superclasses, and only what is behind the interfaces of that
climb is walked level by level. A type that is itself behind an interface gets no climb of its own
there. So it answers for a member in two ways: on its own it asks the whole climb before any
interface, and behind an interface it asks what stands one step from it, whether extended or listed,
before what stands two steps from it.

Both ways ask the same types. They ask them in orders that never disagree unless the climb *passes
an interface*: some type of the climb lists an interface that is declared, and from that type the
climb goes on for two more steps at least. The interface is one step away then and comes before the
second step of the climb on its level, while the climb comes to it only in the end. A single further
step does no harm, for a superclass stands before the listed interfaces on its level as well.

The result is `Catalog.decided_level_ne`: a type whose climb passes no interface, and which leaves a
member with a body or undeclared on its own, does so level by level.
-/

namespace PlatformWiring

namespace Catalog

variable {c : Catalog} {t s : TypeName} {d : DeclaredType} {m : String}

/-- The type extends a type that is declared. -/
def ExtendsDeclared (c : Catalog) (t : TypeName) : Prop :=
  ∃ d s e, c.find? t = some d ∧ d.superclass = some s ∧ c.find? s = some e

/-- The climb from the type passes an interface: a type of the climb lists one that is declared, and
its superclass extends a declared type. -/
def PassesInterface (c : Catalog) (t : TypeName) : Prop :=
  ∃ n, ∃ d ∈ c.climb n t, (∃ i ∈ d.interfaces, ∃ e, c.find? i = some e) ∧
    ∃ s, d.superclass = some s ∧ c.ExtendsDeclared s

/-- What the climb of the superclass passes, the climb of the type passes. -/
theorem PassesInterface.of_superclass (hd : c.find? t = some d) (hs : d.superclass = some s)
    (h : c.PassesInterface s) : c.PassesInterface t := by
  obtain ⟨n, e, he, hlists, hclimbs⟩ := h
  exact ⟨n + 1, e, climb_superclass_subset hd hs n he, hlists, hclimbs⟩

/-- A type whose climb passes an interface climbs at least two steps itself. So it is enough to know
that the type, or the one it extends, extends nothing that is declared. -/
theorem PassesInterface.exists_superclass (h : c.PassesInterface t) :
    ∃ d s, c.find? t = some d ∧ d.superclass = some s ∧ c.ExtendsDeclared s := by
  obtain ⟨n, e, he, -, s, hs, hclimbs⟩ := h
  induction n generalizing t with
  | zero => exact absurd he List.not_mem_nil
  | succ n ih =>
    rcases hd : c.find? t with _ | d
    · rw [climb_of_undeclared hd] at he
      exact absurd he List.not_mem_nil
    · rw [climb_succ hd, List.mem_cons, List.mem_flatMap] at he
      rcases he with rfl | ⟨u, hu, he⟩
      · exact ⟨e, s, rfl, hs, hclimbs⟩
      · -- further up there are two steps, and the first of them is the second one from here
        obtain ⟨d', s', hd', hs', e', -, -, he', -⟩ := ih he
        exact ⟨d, u, rfl, Option.mem_toList.1 hu, d', s', e', hd', hs', he'⟩

/-! ## What a type gives on its own

A type that does not leave the member without a body says so by its hierarchy. By
`decided_hierarchy_iff` that is a statement about climbs, and about the levels below the interfaces
that are listed along them, and in this form the statement is used below. -/

/-- No climb from such a type meets the member without a body first. -/
theorem decided_climb_ne (h : m ∉ c.unimplemented t) (n : Nat) :
    decided m (c.climb n t) ≠ some true := by
  intro hn
  exact h (mem_unimplemented_iff.2 (decided_hierarchy_iff.2 (Or.inl ⟨n, hn⟩)))

/-- Nor does the lowest level that declares it, if no climb does. -/
theorem decided_listed_ne (h : m ∉ c.unimplemented t)
    (hclimb : ∀ n, decided m (c.climb n t) = none) {n : Nat}
    (hlower : ∀ i < n, ∀ k, decided m (c.level i (c.listed k t)) = none) (k : Nat) :
    decided m (c.level n (c.listed k t)) ≠ some true := by
  intro hn
  exact h (mem_unimplemented_iff.2
    (decided_hierarchy_iff.2 (Or.inr ⟨hclimb, k, n, hn, hlower⟩)))

/-- The first level holds what the climb begins with. -/
theorem level_zero_eq_climb (hd : c.find? t = some d) : c.level 0 [t] = c.climb 1 t := by
  rw [climb_succ hd]
  simp [level, hd, climb]

/-- One level further down, what is behind the superclass comes before what is behind the listed
interfaces. -/
theorem decided_level_succ (hd : c.find? t = some d) (n : Nat) :
    decided m (c.level (n + 1) [t]) =
      (decided m (c.level n d.superclass.toList)).or (decided m (c.level n d.interfaces)) := by
  rw [level_succ_singleton, supertypesOf_eq hd, DeclaredType.supertypes, decided_level_append]

/-- Types that nobody declares lead nowhere. -/
theorem level_eq_nil {ts : List TypeName} (h : ∀ t ∈ ts, c.find? t = none) (n : Nat) :
    c.level n ts = [] := by
  induction ts with
  | nil => exact c.level_nil n
  | cons t ts ih =>
    rw [level_cons, level_of_undeclared (h t List.mem_cons_self), List.nil_append]
    exact ih fun u hu => h u (List.mem_cons_of_mem _ hu)

/-! ## A type that lists nothing that is declared

Its levels are those of its superclass, one step later, and its hierarchy is the one of its
superclass behind the type. If the type itself says nothing about the member, then both of its
answers are those of the superclass. -/

/-- If the type says nothing about the member and its interfaces lead nowhere, its superclass does
not leave the member without a body either. -/
theorem not_mem_unimplemented_superclass (hd : c.find? t = some d) (hs : d.superclass = some s)
    (hown : decided m [d] = none) (hnone : ∀ n, c.level n d.interfaces = [])
    (h : m ∉ c.unimplemented t) : m ∉ c.unimplemented s := by
  have hclimb : ∀ n, decided m (c.climb (n + 1) t) = decided m (c.climb n s) := by
    intro n
    rw [climb_succ hd, hs, decided_cons, hown, Option.none_or, Option.toList_some,
      List.flatMap_singleton]
  have hlevel : ∀ n k, c.level n (c.listed (k + 1) t) = c.level n (c.listed k s) := by
    intro n k
    rw [listed_succ hd, hs, level_append, hnone, List.nil_append, Option.toList_some,
      List.flatMap_singleton]
  intro hm
  refine h (mem_unimplemented_iff.2 (decided_hierarchy_iff.2 ?_))
  rcases decided_hierarchy_iff.1 (mem_unimplemented_iff.1 hm) with
    ⟨n, hn⟩ | ⟨hup, k, n, hn, hlower⟩
  · exact Or.inl ⟨n + 1, (hclimb n).trans hn⟩
  · refine Or.inr ⟨fun n => ?_, k + 1, n, (hlevel n k).symm ▸ hn, fun i hi k => ?_⟩
    · cases n with
      | zero => rfl
      | succ n => exact (hclimb n).trans (hup n)
    · cases k with
      | zero => simp [listed, climb]
      | succ k => exact (hlevel i k).symm ▸ hlower i hi k

/-! ## A type that climbs one step at most

Here the type and its superclass are the whole climb, and the levels can be written out: first the
type, then its superclass and its interfaces, and after these what the superclass lists. What is
listed along the climb are the same interfaces, all of them in one row. So below the interfaces of
the type a level of the row stands one step higher than below the type, and below those of the
superclass two steps. -/

/-- A type lists its own interfaces first. -/
theorem listed_one (hd : c.find? t = some d) : c.listed 1 t = d.interfaces := by
  rw [listed_succ hd]
  cases d.superclass <;> simp [listed, climb]

/-- A type that extends nothing that is declared climbs no further than itself. -/
theorem climb_of_not_extendsDeclared (h : ¬c.ExtendsDeclared t) (n : Nat) :
    c.climb (n + 1) t = c.level 0 [t] := by
  rcases hd : c.find? t with _ | d
  · rw [climb_of_undeclared hd, level_of_undeclared hd]
  · rw [level_zero_eq_climb hd, climb_succ hd, climb_succ hd, List.cons_eq_cons]
    refine ⟨rfl, ?_⟩
    rcases hs : d.superclass with _ | s
    · rfl
    · have hnone : c.find? s = none :=
        Option.eq_none_iff_forall_not_mem.2 fun e he => h ⟨d, s, e, hd, hs, he⟩
      simp [climb_of_undeclared hnone]

/-- Below such a type are the interfaces that it lists. -/
theorem level_of_not_extendsDeclared (h : ¬c.ExtendsDeclared t) (n : Nat) :
    c.level (n + 1) [t] = c.level n (c.listed 1 t) := by
  rcases hd : c.find? t with _ | d
  · rw [level_of_undeclared hd, listed_of_undeclared hd, level_nil]
  · have hnone : c.level n d.superclass.toList = [] := by
      refine level_eq_nil (fun s hs => ?_) n
      exact Option.eq_none_iff_forall_not_mem.2 fun e he =>
        h ⟨d, s, e, hd, Option.mem_toList.1 hs, he⟩
    rw [level_succ_singleton, supertypesOf_eq hd, DeclaredType.supertypes, level_append, hnone,
      listed_one hd, List.nil_append]

section short

/-- The levels of a list of at most one type, which extends nothing that is declared. -/
theorem level_superclass_of_short (hshort : ∀ s ∈ d.superclass.toList, ¬c.ExtendsDeclared s)
    (n : Nat) : c.level (n + 1) d.superclass.toList =
      c.level n (d.superclass.toList.flatMap (c.listed 1)) := by
  rcases hs : d.superclass with _ | s
  · simp
  · rw [Option.toList_some, List.flatMap_singleton,
      level_of_not_extendsDeclared (hshort s (by simp [hs]))]

variable (hd : c.find? t = some d) (hshort : ∀ s ∈ d.superclass.toList, ¬c.ExtendsDeclared s)

include hd hshort

/-- The climb is the type and then its superclass, if that is declared. -/
theorem climb_of_short (n : Nat) : c.climb (n + 2) t = d :: c.level 0 d.superclass.toList := by
  rw [climb_succ hd]
  rcases hs : d.superclass with _ | s
  · rfl
  · rw [Option.toList_some, List.flatMap_singleton,
      climb_of_not_extendsDeclared (hshort s (by simp [hs]))]

/-- What is listed along the climb are the interfaces of the type and then those of its superclass.
-/
theorem listed_of_short (n : Nat) :
    c.listed (n + 2) t = d.interfaces ++ d.superclass.toList.flatMap (c.listed 1) := by
  rw [listed, climb_of_short hd hshort, ← climb_of_short hd hshort 0, ← listed, listed_succ hd]

/-- If neither the type nor its superclass says anything, the climb does not. -/
theorem decided_climb_of_short (hself : decided m [d] = none)
    (hsuper : decided m (c.level 0 d.superclass.toList) = none) (k : Nat) :
    decided m (c.climb k t) = none := by
  match k with
  | 0 => rfl
  | 1 =>
    rw [← level_zero_eq_climb hd]
    simpa [level, hd] using hself
  | k + 2 => rw [climb_of_short hd hshort, decided_cons, hself, hsuper, Option.none_or]

/-- If a level says nothing, neither below the interfaces of the type nor below those of its
superclass, it says nothing below what is listed along the climb. -/
theorem decided_listed_of_short {n : Nat} (hown : decided m (c.level n d.interfaces) = none)
    (hsuper : decided m (c.level n (d.superclass.toList.flatMap (c.listed 1))) = none) (k : Nat) :
    decided m (c.level n (c.listed k t)) = none := by
  match k with
  | 0 => simp [listed, climb]
  | 1 => rw [listed_one hd, hown]
  | k + 2 => rw [listed_of_short hd hshort, decided_level_append, hown, hsuper, Option.none_or]

/-- One step below the type stand its superclass and its interfaces. If the superclass says
something, the climb comes to it next too. -/
theorem decided_level_one_ne_of_short (h : m ∉ c.unimplemented t)
    (hself : decided m [d] = none) : decided m (c.level 1 [t]) ≠ some true := by
  intro htrue
  rw [decided_level_succ hd] at htrue
  rcases hsuper : decided m (c.level 0 d.superclass.toList) with _ | b
  · rw [hsuper, Option.none_or, ← listed_one hd] at htrue
    exact decided_listed_ne h (decided_climb_of_short hd hshort hself hsuper)
      (fun i hi => absurd hi (Nat.not_lt_zero i)) 1 htrue
  · refine decided_climb_ne h 2 ?_
    rw [hsuper, Option.some_or] at htrue
    rw [climb_of_short hd hshort, decided_cons, hself, Option.none_or, hsuper, htrue]

/-- Further below the type stands what is behind its superclass and what is behind its interfaces.
Behind the superclass there are only interfaces, which are one step further. -/
theorem decided_level_add_two_ne_of_short (h : m ∉ c.unimplemented t)
    (hself : decided m [d] = none) {n : Nat}
    (hlower : ∀ i < n + 1, decided m (c.level i d.superclass.toList) = none ∧
      decided m (c.level i d.interfaces) = none) :
    decided m (c.level (n + 2) [t]) ≠ some true := by
  have hclimb := decided_climb_of_short hd hshort hself (hlower 0 (Nat.succ_pos n)).1
  have hbelow : ∀ i < n, ∀ k, decided m (c.level i (c.listed k t)) = none := by
    intro i hi
    refine decided_listed_of_short hd hshort (hlower i (Nat.lt_succ_of_lt hi)).2 ?_
    rw [← level_superclass_of_short hshort]
    exact (hlower (i + 1) (Nat.succ_lt_succ hi)).1
  intro htrue
  rw [decided_level_succ hd, level_superclass_of_short hshort] at htrue
  rcases hsuper : decided m (c.level n (d.superclass.toList.flatMap (c.listed 1))) with _ | b
  · rw [hsuper, Option.none_or, ← listed_one hd] at htrue
    refine decided_listed_ne h hclimb (fun i hi => ?_) 1 htrue
    rcases Nat.lt_succ_iff_lt_or_eq.1 hi with hi | rfl
    · exact hbelow i hi
    · exact decided_listed_of_short hd hshort (hlower i hi).2 hsuper
  · refine decided_listed_ne h hclimb hbelow 2 ?_
    rw [hsuper, Option.some_or] at htrue
    rw [listed_of_short hd hshort, decided_level_append, (hlower n (Nat.lt_succ_self n)).2,
      Option.none_or, hsuper, htrue]

/-- A type that climbs one step at most, and does not leave the member without a body, does not do
so level by level. -/
theorem decided_level_ne_of_short (h : m ∉ c.unimplemented t) {n : Nat}
    (hlower : ∀ i < n, decided m (c.level i [t]) = none) :
    decided m (c.level n [t]) ≠ some true := by
  match n with
  | 0 =>
    rw [level_zero_eq_climb hd]
    exact decided_climb_ne h 1
  | 1 =>
    exact decided_level_one_ne_of_short hd hshort h
      (by simpa [level, hd] using hlower 0 Nat.zero_lt_one)
  | n + 2 =>
    refine decided_level_add_two_ne_of_short hd hshort h
      (by simpa [level, hd] using hlower 0 (Nat.succ_pos _)) fun i hi => ?_
    rw [← Option.or_eq_none_iff, ← decided_level_succ hd]
    exact hlower (i + 1) (Nat.succ_lt_succ hi)

end short

/-! ## A type whose climb passes no interface

The climb may be long, but then the types it begins with list nothing that is declared, up to the
last two. So the type at hand says nothing about the member and hands the question on to its
superclass, or it is one of the last two. -/

/-- **Level by level as along the climb.** If the climb from a type passes no interface, then the
lowest level that declares a member leaves it without a body only if the type does on its own. -/
theorem decided_level_ne (h : m ∉ c.unimplemented t) (hpass : ¬c.PassesInterface t) {n : Nat}
    (hlower : ∀ i < n, decided m (c.level i [t]) = none) :
    decided m (c.level n [t]) ≠ some true := by
  induction n generalizing t with
  | zero =>
    rcases hd : c.find? t with _ | d
    · simp [level_of_undeclared hd]
    · rw [level_zero_eq_climb hd]
      exact decided_climb_ne h 1
  | succ n ih =>
    rcases hd : c.find? t with _ | d
    · simp [level_of_undeclared hd]
    by_cases hlists : ∃ i ∈ d.interfaces, ∃ e, c.find? i = some e
    · refine decided_level_ne_of_short hd (fun s hs hclimbs => hpass ?_) h hlower
      refine ⟨1, d, ?_, hlists, s, Option.mem_toList.1 hs, hclimbs⟩
      rw [climb_succ hd]
      exact List.mem_cons_self
    · have hnone : ∀ k, c.level k d.interfaces = [] := fun k =>
        level_eq_nil (fun i hi => Option.eq_none_iff_forall_not_mem.2 fun e he =>
          hlists ⟨i, hi, e, he⟩) k
      have hlevel : ∀ k, decided m (c.level (k + 1) [t]) =
          decided m (c.level k d.superclass.toList) := fun k => by
        rw [decided_level_succ hd, hnone, decided_nil, Option.or_none]
      have hself : decided m [d] = none := by
        simpa [level, hd] using hlower 0 (Nat.succ_pos n)
      rw [hlevel]
      rcases hs : d.superclass with _ | s
      · simp
      · rw [hs, Option.toList_some] at hlevel
        refine ih (not_mem_unimplemented_superclass hd hs hself hnone h)
          (fun hp => hpass (hp.of_superclass hd hs)) fun i hi => ?_
        rw [← hlevel]
        exact hlower (i + 1) (Nat.succ_lt_succ hi)

end Catalog

end PlatformWiring
