import Mathlib.Data.List.Perm.Subperm
import PlatformWiring.Proofs.Hierarchy.Cycle

/-!
# What a walk along supertypes reaches

A breadth-first walk lists the declared types that the types in its queue lead to, each once, and no
others. What it has seen before it skips, so the seen types must not be the only way to something:
whatever they derive from has been seen too, or it waits in the queue. From this follows that one
type is assignable to another exactly if they are the same or a chain of declarations leads from the
one to the other, and that more declarations leave assignable what was assignable before.
-/

namespace PlatformWiring

namespace Catalog

open Relation

variable {c c' : Catalog} {t u : TypeName} {d : DeclaredType} {seen queue : List TypeName}

/-- A declared type derives from the supertypes that it lists. -/
theorem derives_iff (h : c.find? t = some d) : c.Derives t u ↔ u ∈ d.supertypes := by
  rw [Derives, h]
  simp

theorem not_derives (h : c.find? t = none) : ¬c.Derives t u := by
  rintro ⟨d, hd, -⟩
  rw [h] at hd
  cases hd

theorem eq_of_reach (h : c.find? t = none) (hreach : ReflTransGen c.Derives t u) : u = t := by
  rcases hreach.cases_head with rfl | ⟨s, hs, -⟩
  · rfl
  · exact absurd hs (not_derives h)

/-- What the seen types derive from has been seen, or it waits in the queue, or it is undeclared.
This is the invariant of the walk: what is still to be found can be found from the queue alone. -/
def Covered (c : Catalog) (seen queue : List TypeName) : Prop :=
  ∀ t ∈ seen, ∀ u, c.Derives t u → u ∈ seen ∨ u ∈ queue ∨ c.find? u = none

/-- Where nothing has been seen yet, nothing can have been missed. -/
theorem covered_nil (c : Catalog) (queue : List TypeName) : c.Covered [] queue :=
  fun _ ht => (List.not_mem_nil ht).elim

/-- The front of the queue can go if it was seen, or if nobody declares it. -/
theorem Covered.skip (h : c.Covered seen (t :: queue)) (ht : t ∈ seen ∨ c.find? t = none) :
    c.Covered seen queue := by
  intro s hs u hu
  rcases h s hs u hu with hseen | hqueue | hnone
  · exact Or.inl hseen
  · rcases List.mem_cons.1 hqueue with rfl | hqueue
    · exact ht.imp id Or.inr
    · exact Or.inr (Or.inl hqueue)
  · exact Or.inr (Or.inr hnone)

/-- The front of the queue can be marked as seen once its supertypes wait at the end. -/
theorem Covered.visit (h : c.Covered seen (t :: queue)) (hd : c.find? t = some d) :
    c.Covered (t :: seen) (queue ++ d.supertypes) := by
  intro s hs u hu
  rcases List.mem_cons.1 hs with rfl | hs
  · exact Or.inr (Or.inl (List.mem_append_right _ ((derives_iff hd).1 hu)))
  · rcases h s hs u hu with hseen | hqueue | hnone
    · exact Or.inl (List.mem_cons_of_mem _ hseen)
    · rcases List.mem_cons.1 hqueue with rfl | hqueue
      · exact Or.inl List.mem_cons_self
      · exact Or.inr (Or.inl (List.mem_append_left _ hqueue))
    · exact Or.inr (Or.inr hnone)

/-- A seen type leads to an unseen one only through the queue. By induction on the way: its first
step leads to a seen type again, from where the rest of the way is as good, or it leads to the
queue. -/
theorem Covered.exists_reach (h : c.Covered seen queue) (ht : t ∈ seen)
    (hreach : ReflTransGen c.Derives t u) (hu : u ∉ seen) (hd : c.find? u = some d) :
    ∃ q ∈ queue, ReflTransGen c.Derives q u := by
  induction hreach using ReflTransGen.head_induction_on with
  | refl => exact absurd ht hu
  | head hstep hrest ih =>
    rename_i t s
    rcases h t ht s hstep with hseen | hqueue | hnone
    · exact ih hseen
    · exact ⟨s, hqueue, hrest⟩
    · rw [eq_of_reach hnone hrest, hnone] at hd
      cases hd

/-- **A walk lists what its queue leads to**: the declared types that have not been seen. By
induction along the walk, with `Covered` as the invariant; without it, a walk that skips a seen type
could miss what is reached only from there. -/
theorem mem_spread_iff (h : c.Covered seen queue) : d ∈ c.spread seen queue ↔
    c.find? d.name = some d ∧ d.name ∉ seen ∧ ∃ q ∈ queue, ReflTransGen c.Derives q d.name := by
  fun_induction spread c seen queue with
  | case1 seen => simp
  | case2 seen t queue ht ih =>
    rw [ih (h.skip (Or.inl ht))]
    refine and_congr_right fun hd => and_congr_right fun hseen => ?_
    rw [List.exists_mem_cons_iff]
    exact ⟨Or.inr, fun hq => hq.elim (fun hreach =>
      (h.skip (Or.inl ht)).exists_reach ht hreach hseen hd) id⟩
  | case3 seen t queue ht hnone ih =>
    rw [ih (h.skip (Or.inr hnone))]
    refine and_congr_right fun hd => and_congr_right fun hseen => ?_
    rw [List.exists_mem_cons_iff]
    refine ⟨Or.inr, fun hq => hq.elim (fun hreach => ?_) id⟩
    rw [eq_of_reach hnone hreach, hnone] at hd
    cases hd
  | case4 seen t queue ht e he ih =>
    have hname := name_of_find? he
    rw [List.mem_cons, ih (h.visit he)]
    constructor
    · rintro (rfl | ⟨hd, hseen, q, hq, hreach⟩)
      · exact ⟨hname ▸ he, hname ▸ ht, t, List.mem_cons_self, hname ▸ .refl⟩
      · refine ⟨hd, fun hs => hseen (List.mem_cons_of_mem _ hs), ?_⟩
        rcases List.mem_append.1 hq with hq | hq
        · exact ⟨q, List.mem_cons_of_mem _ hq, hreach⟩
        · exact ⟨t, List.mem_cons_self, .head ((derives_iff he).2 hq) hreach⟩
    · rintro ⟨hd, hseen, q, hq, hreach⟩
      by_cases hdt : d.name = t
      · rw [hdt, he] at hd
        exact Or.inl (Option.some.inj hd).symm
      · have hunseen : d.name ∉ t :: seen := by
          rw [List.mem_cons, not_or]
          exact ⟨hdt, hseen⟩
        refine Or.inr ⟨hd, hunseen, ?_⟩
        rcases List.mem_cons.1 hq with rfl | hq
        · exact (h.visit he).exists_reach List.mem_cons_self hreach hunseen hd
        · exact ⟨q, List.mem_append_left _ hq, hreach⟩

/-- A walk lists no type twice, and none that was seen before: a type is marked as soon as it is
listed. -/
theorem nodup_spread (c : Catalog) (seen queue : List TypeName) :
    ((c.spread seen queue).map (·.name)).Nodup ∧
      ∀ d ∈ c.spread seen queue, d.name ∉ seen := by
  fun_induction spread c seen queue with
  | case1 seen => simp
  | case2 seen t queue ht ih => exact ih
  | case3 seen t queue ht hnone ih => exact ih
  | case4 seen t queue ht d hd ih =>
    obtain ⟨hnodup, hunseen⟩ := ih
    have hname := name_of_find? hd
    constructor
    · rw [List.map_cons, List.nodup_cons, hname]
      refine ⟨?_, hnodup⟩
      intro hmem
      obtain ⟨e, he, hte⟩ := List.mem_map.1 hmem
      exact hunseen e he (hte ▸ List.mem_cons_self)
    · intro e he
      rcases List.mem_cons.1 he with rfl | he
      · rwa [hname]
      · exact fun hs => hunseen e he (List.mem_cons_of_mem _ hs)

/-- Declared types that are listed without repeats are no more than there are. This bounds the work
of every walk. -/
theorem length_le_of_nodup {ds : List DeclaredType} (hnodup : (ds.map (·.name)).Nodup)
    (hds : ∀ d ∈ ds, c.find? d.name = some d) : ds.length ≤ c.types.length := by
  have hsubset : ds ⊆ c.types := fun d hd => mem_of_find? (hds d hd)
  exact (List.Nodup.subperm hnodup.of_map hsubset).length_le

/-! ## Assignability

The search for a supertype is the walk from a single type, asked whether a listed type has it among
its supertypes. So assignability is reachability along `Derives`. The target itself need not be
declared, so a way to it consists of declared types up to the last one. -/

/-- A type is assignable to itself and to whatever declarations lead to. The two cases are kept
apart, since an undeclared type is assignable to itself without any way. -/
theorem assignable_eq_true_iff : c.assignable t u = true ↔ t = u ∨ TransGen c.Derives t u := by
  rw [assignable, Bool.or_eq_true, decide_eq_true_iff, List.any_eq_true, TransGen.tail'_iff]
  refine or_congr_right ⟨?_, ?_⟩
  · rintro ⟨d, hd, hu⟩
    obtain ⟨hfind, -, q, hq, hreach⟩ := (mem_spread_iff (covered_nil c [t])).1 hd
    obtain rfl := List.mem_singleton.1 hq
    exact ⟨d.name, hreach, d, hfind, of_decide_eq_true hu⟩
  · rintro ⟨s, hreach, d, hd, hu⟩
    obtain rfl := name_of_find? hd
    exact ⟨d, (mem_spread_iff (covered_nil c [t])).2
      ⟨hd, List.not_mem_nil, t, List.mem_singleton_self t, hreach⟩, decide_eq_true hu⟩

/-- The same with ways of any length, the empty one included. -/
theorem assignable_eq_true_iff_reach :
    c.assignable t u = true ↔ ReflTransGen c.Derives t u := by
  rw [assignable_eq_true_iff, reflTransGen_iff_eq_or_transGen, eq_comm]

/-- **Assignability is reachability.** Whatever the catalog, circles and undeclared supertypes
included, the search visits no more types than are declared, and it finds exactly the type itself
and the types at the end of a way from it, on which each type before the last one is declared and
lists the next one as its superclass or as an interface. -/
theorem assignable_iff_exists_way (c : Catalog) (t u : TypeName) :
    (c.spread [] [t]).length ≤ c.types.length ∧
      (c.assignable t u = true ↔
        t = u ∨ ∃ between, List.IsChain c.Derives (t :: (between ++ [u]))) := by
  constructor
  · refine length_le_of_nodup (c.nodup_spread [] [t]).1 ?_
    intro d hd
    exact ((mem_spread_iff (covered_nil c [t])).1 hd).1
  · rw [assignable_eq_true_iff, transGen_iff_exists_isChain]

/-- The other catalog knows every declaration of the first one. Catalogs with stubs are compared
with those without in this way. -/
def Knows (c' c : Catalog) : Prop := ∀ t d, c.find? t = some d → c'.find? t = some d

/-- What a type derived from, it still derives from. -/
theorem Knows.derives (h : c'.Knows c) : c.Derives t u → c'.Derives t u :=
  fun ⟨d, hd, hu⟩ => ⟨d, h t d hd, hu⟩

/-- More declarations leave assignable what was assignable before. -/
theorem Knows.assignable (h : c'.Knows c) (ha : c.assignable t u = true) :
    c'.assignable t u = true := by
  rw [assignable_eq_true_iff] at ha ⊢
  exact ha.imp id (TransGen.mono (fun _ _ => h.derives) _ _)

end Catalog

end PlatformWiring
