import PlatformWiring.Proofs.Hierarchy.Resolution

/-!
# What a hierarchy lists

The hierarchy of a type is walked in two parts: along the superclasses, and then from the
interfaces of those classes on. Together they list what a single search from the type would find,
each declared type once, since the second part skips what the first one has listed. The members are
decided by the first declaration in this order. So superclasses decide before all interfaces, and
whatever no listed type gives a body to is left without one.
-/

namespace PlatformWiring

namespace Catalog

open Relation

variable {c : Catalog} {t u : TypeName} {d : DeclaredType} {m : String} {b : Bool}
  {seen : List TypeName}

/-! ## The listed types

The chain lists what superclasses lead to. The walk after it has the chain marked as seen, and its
queue holds the interfaces of the chain. `covered_chain` says that nothing is missed by that: the
only step from a seen type to an unseen declared one is to a listed interface. So the two parts
together are the walk from the type itself, and disjoint. -/

/-- A chain lists no type twice, and none that was seen before. -/
theorem nodup_chain (c : Catalog) (seen : List TypeName) (t : TypeName) :
    ((c.chain seen t).map (·.name)).Nodup ∧ ∀ d ∈ c.chain seen t, d.name ∉ seen := by
  fun_induction chain c seen t with
  | case1 seen t ht => simp
  | case2 seen t ht hnone => simp
  | case3 seen t ht d hd ih =>
    have hname := name_of_find? hd
    rcases hs : d.superclass with _ | s
    · simpa [hname] using ht
    · obtain ⟨hnodup, hunseen⟩ := ih s
      simp only [List.map_cons, List.nodup_cons, hname, List.forall_mem_cons]
      refine ⟨⟨?_, hnodup⟩, ht, ?_⟩
      · intro hmem
        obtain ⟨e, he, hte⟩ := List.mem_map.1 hmem
        exact hunseen e he (hte ▸ List.mem_cons_self)
      · intro e he hs
        exact hunseen e he (List.mem_cons_of_mem _ hs)

/-- A type derives from what its chain lists, or it is listed itself. -/
theorem reach_of_mem_chain (h : d ∈ c.chain seen t) : ReflTransGen c.Derives t d.name := by
  fun_induction chain c seen t with
  | case1 seen t ht => exact absurd h List.not_mem_nil
  | case2 seen t ht hnone => exact absurd h List.not_mem_nil
  | case3 seen t ht e he ih =>
    rcases hs : e.superclass with _ | s
    · simp only [hs, List.mem_singleton] at h
      rw [h, name_of_find? he]
    · simp only [hs, List.mem_cons] at h
      rcases h with rfl | h
      · rw [name_of_find? he]
      · have hstep : c.Derives t s := ⟨e, he, by simp [DeclaredType.supertypes, hs]⟩
        exact .head hstep (ih s h)

/-- It derives from the interfaces that its chain lists. -/
theorem transGen_of_mem_queueOf (h : u ∈ c.queueOf t) : TransGen c.Derives t u := by
  obtain ⟨d, hd, hu⟩ := List.mem_flatMap.1 h
  exact .tail' (reach_of_mem_chain hd) ⟨d, find?_of_mem_chain hd, List.mem_append_right _ hu⟩

/-- A declared type is on its own chain. -/
theorem mem_chain_head (h : c.find? t = some d) : t ∈ (c.chain [] t).map (·.name) := by
  rcases c.chain_head [] t with hnil | hnone | hmem
  · exact absurd hnil List.not_mem_nil
  · rw [hnone] at h
    cases h
  · exact hmem

/-- **What a hierarchy lists**: the declared types that a way along supertypes leads to. A way
leaves the chain at most once, by an interface that the chain lists, and `mem_spread_iff` takes over
there. -/
theorem mem_hierarchy_iff : d ∈ c.hierarchy t ↔
    c.find? d.name = some d ∧ ReflTransGen c.Derives t d.name := by
  rw [hierarchy, List.mem_append, mem_spread_iff (c.covered_chain t)]
  constructor
  · rintro (hd | ⟨hfind, -, q, hq, hreach⟩)
    · exact ⟨find?_of_mem_chain hd, reach_of_mem_chain hd⟩
    · exact ⟨hfind, (transGen_of_mem_queueOf hq).to_reflTransGen.trans hreach⟩
  · rintro ⟨hfind, hreach⟩
    by_cases hmem : d.name ∈ (c.chain [] t).map (·.name)
    · obtain ⟨e, he, hname⟩ := List.mem_map.1 hmem
      have hsame : e = d := by
        have := find?_of_mem_chain he
        rw [hname, hfind] at this
        exact (Option.some.inj this).symm
      exact Or.inl (hsame ▸ he)
    · -- the type is declared, so its chain begins with it and lists all ways out of the chain
      rcases ht : c.find? t with _ | e
      · rw [eq_of_reach ht hreach, ht] at hfind
        cases hfind
      · exact Or.inr ⟨hfind, hmem, (c.covered_chain t).exists_reach (mem_chain_head ht) hreach hmem
          hfind⟩

/-- A hierarchy lists no type twice: neither part does, and the second skips what the first has
seen. -/
theorem nodup_hierarchy (c : Catalog) (t : TypeName) : ((c.hierarchy t).map (·.name)).Nodup := by
  rw [hierarchy, List.map_append]
  refine List.nodup_append'.2 ⟨(c.nodup_chain [] t).1, (c.nodup_spread _ _).1, ?_⟩
  intro u hchain hspread
  obtain ⟨d, hd, rfl⟩ := List.mem_map.1 hspread
  exact (c.nodup_spread _ _).2 d hd hchain

/-! ## The members

Which members are left without a body follows from `decided`, the answer of the first declaration in
the hierarchy. If every declaring type leaves the member open, so does the first one, and if the
first one does, some declaring type does. What the chain says is said first. -/

/-- One declaration of each member name is decisive. -/
theorem nodup_decisive (ms : List Member) : ((decisive ms).map (·.name)).Nodup := by
  induction ms with
  | nil => exact .nil
  | cons x ms ih =>
    rw [decisive, List.map_cons, List.nodup_cons]
    refine ⟨?_, ih.sublist (List.filter_sublist.map _)⟩
    intro hmem
    obtain ⟨y, hy, hname⟩ := List.mem_map.1 hmem
    exact of_decide_eq_true (List.mem_filter.1 hy).2 hname

/-- No member is named twice. -/
theorem nodup_unimplemented (c : Catalog) (t : TypeName) : (c.unimplemented t).Nodup :=
  (nodup_decisive _).sublist (List.filter_sublist.map _)

/-- A list of types and a list of members answer for a type: the types are what it is and derives
from, and the members are those that it leaves without a body. -/
structure AnswersFor (c : Catalog) (t : TypeName) (ds : List DeclaredType) (ms : List String) :
    Prop where
  /-- no type is listed twice -/
  types_once : (ds.map (·.name)).Nodup
  /-- the declared types that the type is assignable to are listed, and no others -/
  mem_types_iff : ∀ d, d ∈ ds ↔ c.find? d.name = some d ∧ c.assignable t d.name = true
  /-- for an undeclared type nothing is listed -/
  undeclared : c.find? t = none → ds = []
  /-- no member is named twice -/
  members_once : ms.Nodup
  /-- a member is named if some listed type declares it and each one that does gives no body -/
  left_by_all : ∀ m, (∃ d ∈ ds, d.Declares m) →
    (∀ d ∈ ds, d.Declares m → decided m [d] = some true) → m ∈ ms
  /-- a member that is named is declared without a body by some listed type -/
  left_by_one : ∀ m ∈ ms, ∃ d ∈ ds, decided m [d] = some true
  /-- if a class up the chain of the type declares the member, or the type itself, then the first
  declaration in the most derived one of these decides -/
  classes_first : ∀ n before d after m, c.climb n t = before ++ d :: after →
    (∀ e ∈ before, ¬e.Declares m) → d.Declares m → (m ∈ ms ↔ decided m [d] = some true)

/-- **The hierarchy is what assignability says, superclasses first.** Whatever the catalog, circles
and undeclared supertypes included, the hierarchy of a type lists each declared type that the type
is assignable to once. What the type leaves without a body has no repeats; every member is among it
that listed types declare and none of them gives a body to, and none that no listed type leaves
without one. Where a superclass declares the member, interfaces do not matter. -/
theorem hierarchy_answersFor (c : Catalog) (t : TypeName) :
    c.AnswersFor t (c.hierarchy t) (c.unimplemented t) := by
  constructor
  case types_once => exact c.nodup_hierarchy t
  case mem_types_iff =>
    intro d
    rw [mem_hierarchy_iff, assignable_eq_true_iff_reach]
  case undeclared =>
    intro hnone
    apply List.eq_nil_iff_forall_not_mem.2
    intro d hd
    obtain ⟨hfind, hreach⟩ := mem_hierarchy_iff.1 hd
    rw [eq_of_reach hnone hreach, hnone] at hfind
    cases hfind
  case members_once => exact c.nodup_unimplemented t
  case left_by_all =>
    rintro m ⟨d, hd, hdeclares⟩ hall
    rw [mem_unimplemented_iff]
    rcases hdecided : decided m (c.hierarchy t) with _ | b
    · exact absurd hdeclares (decided_eq_none_iff_not_declares.1 hdecided d hd)
    · obtain ⟨before, e, after, hsplit, -, he⟩ := decided_eq_some_iff.1 hdecided
      have hmem : e ∈ c.hierarchy t := by simp [hsplit]
      rw [← he, hall e hmem (declares_iff.2 ⟨b, he⟩)]
  case left_by_one =>
    intro m hm
    obtain ⟨before, d, after, hsplit, -, hd⟩ := decided_eq_some_iff.1 (mem_unimplemented_iff.1 hm)
    exact ⟨d, by simp [hsplit], hd⟩
  case classes_first =>
    intro n before d after m hclimb hbefore hdeclares
    obtain ⟨b, hb⟩ := declares_iff.1 hdeclares
    have hfirst : decided m (c.climb n t) = some b := decided_eq_some_iff.2
      ⟨before, d, after, hclimb, decided_eq_none_iff_not_declares.2 hbefore, hb⟩
    rw [mem_unimplemented_iff, hierarchy, decided_append, decided_chain_of_climb hfirst,
      Option.some_or, hb]

end Catalog

end PlatformWiring
