import Mathlib.Data.List.Chain
import Mathlib.Logic.Relation
import PlatformWiring.Hierarchy.Cycle
import PlatformWiring.Proofs.Hierarchy.Catalog
import PlatformWiring.Proofs.TypeName

/-!
# Circles and the search for them

A type is looped if a circle can be reached from it. A search that ends well has met no looped
type, since a type is looped only if one of its supertypes is. A search that complains has met a
type of its own path again. The path is a way along supertypes on which no type stands twice, so
from that type on it closes to a circle, and what is complained about is this circle, written from
its smallest type on. So the search complains exactly if there is a circle, and whether there is one
does not depend on the order of the declarations.
-/

namespace PlatformWiring

namespace Catalog

open Relation

variable {c c' : Catalog} {t u : TypeName} {d : DeclaredType} {path todo done : List TypeName}

/-- The type is declared, and it lists the other as its superclass or as an interface. -/
def Derives (c : Catalog) (t u : TypeName) : Prop :=
  ∃ d, c.find? t = some d ∧ u ∈ d.supertypes

/-- No type derives from itself, directly or through others. -/
def Acyclic (c : Catalog) : Prop := ∀ t, ¬TransGen c.Derives t t

/-- The type is on a circle or derives from one that is. The search is not stopped by circles alone:
from a looped type it comes to the circle sooner or later, and so it cannot end well below one. -/
def Looped (c : Catalog) (t : TypeName) : Prop :=
  ∃ u, ReflTransGen c.Derives t u ∧ TransGen c.Derives u u

/-- A looped type has a looped supertype, be it the next one on its circle or the next one on the
way there. So what derives from unlooped types only is unlooped. -/
theorem Looped.exists_derives (h : c.Looped t) : ∃ s, c.Derives t s ∧ c.Looped s := by
  obtain ⟨u, hu, hcircle⟩ := h
  rcases hu.cases_head with rfl | ⟨s, hs, hsu⟩
  · -- the circle leads from the type to a supertype and back
    obtain ⟨s, hs, hback⟩ := TransGen.head'_iff.1 hcircle
    exact ⟨s, hs, t, hback, hcircle⟩
  · exact ⟨s, hs, u, hsu, hcircle⟩

/-- An undeclared type leads nowhere, so to no circle. -/
theorem not_looped_of_find?_none (h : c.find? t = none) : ¬c.Looped t := by
  intro hlooped
  obtain ⟨s, ⟨d, hd, -⟩, -⟩ := hlooped.exists_derives
  rw [h] at hd
  cases hd

/-- A declared type is unlooped if its supertypes are. With this the search may mark it as done. -/
theorem not_looped_of_supertypes (hd : c.find? t = some d)
    (h : ∀ s ∈ d.supertypes, ¬c.Looped s) : ¬c.Looped t := by
  intro hlooped
  obtain ⟨s, ⟨d', hd', hs⟩, hlooped⟩ := hlooped.exists_derives
  rw [hd] at hd'
  cases hd'
  exact h s hs hlooped

/-- There is no circle if no declared type is looped, for circles pass declared types only. -/
theorem acyclic_of_not_looped (h : ∀ d ∈ c.types, ¬c.Looped d.name) : c.Acyclic := by
  intro t ht
  -- a type on a circle is declared
  obtain ⟨s, ⟨d, hd, -⟩, -⟩ := TransGen.head'_iff.1 ht
  obtain ⟨hmem, rfl⟩ := find?_eq_some_iff.1 hd
  exact h d hmem ⟨_, .refl, ht⟩

/-! ## Steps between declared types

A way along `Derives` may end at an undeclared type, but a circle cannot pass one. `Links` are the
steps between declared types, and in these the reported circles are written. `Circle` is what a
report has to be: closed, without repeats, and begun at its smallest type, so that one circle has
one name. -/

/-- The type is declared, and it lists the other one, which is declared too. -/
def Links (c : Catalog) (t u : TypeName) : Prop := c.Derives t u ∧ c.declares u = true

theorem declares_of_find? (h : c.find? t = some d) : c.declares t = true := by
  rw [declares, h, Option.isSome_some]

theorem Derives.declares (h : c.Derives t u) : c.declares t = true := by
  obtain ⟨d, hd, -⟩ := h
  exact declares_of_find? hd

/-- A way along supertypes that ends at a declared type passes declared types only. -/
theorem transGen_links (h : TransGen c.Derives t u) (hu : c.declares u = true) :
    TransGen c.Links t u := by
  induction h with
  | single hstep => exact .single ⟨hstep, hu⟩
  | tail _ hstep ih => exact (ih hstep.declares).tail ⟨hstep, hu⟩

/-- So circles are the same, whether undeclared supertypes are looked at or not. -/
theorem acyclic_iff_links : c.Acyclic ↔ ∀ t, ¬TransGen c.Links t t := by
  constructor
  · intro h t hcircle
    exact h t (TransGen.mono (fun _ _ hlink => hlink.1) _ _ hcircle)
  · intro h t hcircle
    obtain ⟨s, hs, -⟩ := TransGen.head'_iff.1 hcircle
    exact h t (transGen_links hcircle hs.declares)

/-- Once round a circle of declared types, from its smallest type on: each of the types lists the
next one as its superclass or as an interface, and the last one lists the first one. -/
structure Circle (c : Catalog) (first : TypeName) (others : List TypeName) : Prop where
  /-- each lists the next one, and the last one lists the first one -/
  linked : List.IsChain c.Links (first :: (others ++ [first]))
  /-- no type is passed twice -/
  nodup : (first :: others).Nodup
  /-- the first one is the smallest -/
  least : ∀ t ∈ others, first.Before t

/-- One type derives from another one if a list of types leads from the one to the other, in which
each type is declared and lists the next one. -/
theorem transGen_iff_exists_isChain : TransGen c.Derives t u ↔
    ∃ between, List.IsChain c.Derives (t :: (between ++ [u])) := by
  constructor
  · intro h
    induction h using TransGen.head_induction_on with
    | single hstep => exact ⟨[], List.isChain_pair.2 hstep⟩
    | @head t s hstep _ ih =>
      obtain ⟨between, hbetween⟩ := ih
      exact ⟨s :: between, List.isChain_cons_cons.2 ⟨hstep, hbetween⟩⟩
  · rintro ⟨between, h⟩
    induction between generalizing t with
    | nil => exact .single (List.isChain_pair.1 h)
    | cons s between ih =>
      obtain ⟨hstep, hrest⟩ := List.isChain_cons_cons.1 h
      exact .head hstep (ih hrest)

/-- The first type of a circle derives from itself. -/
theorem Circle.transGen {first : TypeName} {others : List TypeName} (h : c.Circle first others) :
    TransGen c.Derives first first :=
  transGen_iff_exists_isChain.2 ⟨others, h.linked.imp fun _ _ hlink => hlink.1⟩

end Catalog

/-! ## Writing a circle from its smallest type on

The search meets a circle at any of its types. What it writes is the stretch of its path from that
type on, turned so that the smallest type comes first and closed by repeating that type. Turning
keeps the steps, since the last type lists the first one. -/

namespace InheritanceCycle

/-- The smallest type is one of the list. -/
theorem smallest_mem (t : TypeName) (rest : List TypeName) : smallest t rest ∈ t :: rest := by
  induction rest generalizing t with
  | nil => exact List.mem_singleton_self t
  | cons u rest ih =>
    rw [smallest]
    split
    · have hmem := ih t
      simp only [List.mem_cons] at hmem ⊢
      exact hmem.imp id Or.inr
    · exact List.mem_cons_of_mem _ (ih u)

/-- It comes before all others. -/
theorem smallest_least (t : TypeName) (rest : List TypeName) :
    ∀ u ∈ t :: rest, (smallest t rest).Before u ∨ smallest t rest = u := by
  induction rest generalizing t with
  | nil =>
    intro u hu
    exact Or.inr (List.mem_singleton.1 hu).symm
  | cons v rest ih =>
    rw [smallest]
    split
    · -- the first one goes on, and it comes before the second one
      rename_i hle
      have hfirst := ih t t List.mem_cons_self
      intro u hu
      rcases List.mem_cons.1 hu with rfl | hu
      · exact hfirst
      · rcases List.mem_cons.1 hu with rfl | hu
        · exact TypeName.before_or_eq_trans hfirst (TypeName.le_iff.1 hle)
        · exact ih t u (List.mem_cons_of_mem _ hu)
    · -- the second one goes on, and it comes before the first one
      rename_i hle
      rw [TypeName.le_iff, not_or] at hle
      have hbefore : v.Before t :=
        ((TypeName.before_trichotomy t v).resolve_left hle.1).resolve_left hle.2
      intro u hu
      rcases List.mem_cons.1 hu with rfl | hu
      · exact TypeName.before_or_eq_trans (ih v v List.mem_cons_self) (Or.inl hbefore)
      · exact ih v u hu

/-- A list breaks in two before the first place of each of its elements. -/
theorem exists_dropWhile_eq_cons {ts : List TypeName} {t : TypeName} (h : t ∈ ts) :
    ∃ rest, ts.dropWhile (· ≠ t) = t :: rest := by
  induction ts with
  | nil => exact absurd h List.not_mem_nil
  | cons u ts ih =>
    by_cases hu : u = t
    · exact ⟨ts, by simp [hu]⟩
    · simpa [hu] using ih ((List.mem_cons.1 h).resolve_left fun he => hu he.symm)

/-- A closed way can be entered at each of its types. What came before that type is passed at the
end, by the step that closes the way. -/
theorem isChain_entered {c : Catalog} {t first : TypeName} {rest before after : List TypeName}
    (hsplit : before ++ first :: after = t :: rest)
    (hlinked : List.IsChain c.Links (t :: (rest ++ [t]))) :
    List.IsChain c.Links (first :: (after ++ before ++ [first])) := by
  cases before with
  | nil =>
    obtain ⟨rfl, rfl⟩ := List.cons_eq_cons.1 hsplit
    rwa [List.append_nil]
  | cons b before =>
    rw [List.cons_append] at hsplit
    obtain ⟨rfl, rfl⟩ := List.cons_eq_cons.1 hsplit
    rw [List.append_assoc, List.cons_append, ← List.cons_append, List.isChain_split] at hlinked
    -- what stood before the type follows where the rest of the way has come back
    have hjoin : first :: (after ++ b :: before ++ [first]) =
        (first :: after) ++ b :: (before ++ [first]) := by simp
    rw [hjoin, List.isChain_split]
    exact ⟨hlinked.2, hlinked.1⟩

/-- What closes to a circle is still one when it is written from its smallest type on. -/
theorem circle_through {c : Catalog} {t : TypeName} {rest : List TypeName}
    (hlinked : List.IsChain c.Links (t :: (rest ++ [t]))) (hnodup : (t :: rest).Nodup) :
    ∃ first others, (through (t :: rest)).types = first :: (others ++ [first]) ∧
      c.Circle first others := by
  obtain ⟨after, hafter⟩ := exists_dropWhile_eq_cons (smallest_mem t rest)
  have hleast := smallest_least t rest
  rw [through]
  generalize smallest t rest = first at hafter hleast
  have hsplit := List.takeWhile_append_dropWhile (p := fun u => decide (u ≠ first)) (l := t :: rest)
  generalize (t :: rest).takeWhile (fun u => decide (u ≠ first)) = before at hsplit ⊢
  rw [hafter] at hsplit ⊢
  have hperm : (t :: rest).Perm (first :: (after ++ before)) := by
    rw [← hsplit]
    exact List.perm_append_comm
  have hnodup' : (first :: (after ++ before)).Nodup := hperm.nodup_iff.1 hnodup
  refine ⟨first, after ++ before, rfl, isChain_entered hsplit hlinked, hnodup', ?_⟩
  intro u hu
  have hne : first ≠ u := by
    rintro rfl
    exact (List.nodup_cons.1 hnodup').1 hu
  exact (hleast u (hperm.mem_iff.2 (List.mem_cons_of_mem _ hu))).resolve_right hne

end InheritanceCycle

namespace Catalog

open Relation

variable {c c' : Catalog} {t u : TypeName} {d : DeclaredType} {path todo done : List TypeName}

/-! ## The search

The search goes in depth first. Its `path` holds the types it is inside of, innermost first, and
`done` those from which it has returned. Two invariants are carried along it, one for each way it
can end. While it goes well, nothing in `done` is looped, so what it accepts is free of circles.
While it goes on, the path `Stands`: it is a way along supertypes, so that meeting one of its types
again closes a circle. -/

/-- A search that ends well has met no looped type, neither among those to do nor on the way. By
induction along the search: a type is marked as done only after all its supertypes are. -/
theorem not_looped_of_search {path done todo done' : List TypeName}
    (hdone : ∀ t ∈ done, ¬c.Looped t) (h : c.search path done todo = .ok done') :
    (∀ t ∈ done', ¬c.Looped t) ∧ ∀ t ∈ todo, ¬c.Looped t := by
  fun_induction search c path done todo generalizing done' with
  | case1 path done =>
    cases h
    exact ⟨hdone, fun t ht => (List.not_mem_nil ht).elim⟩
  | case2 path done t rest hnone ih =>
    obtain ⟨hdone', hrest⟩ := ih hdone h
    exact ⟨hdone', List.forall_mem_cons.2 ⟨not_looped_of_find?_none hnone, hrest⟩⟩
  | case3 path done t rest d hd ht ih =>
    obtain ⟨hdone', hrest⟩ := ih hdone h
    exact ⟨hdone', List.forall_mem_cons.2 ⟨hdone t ht, hrest⟩⟩
  | case4 => cases h
  | case5 => cases h
  | case6 path done t rest d hd ht hpath done₁ hdone₁ ih₁ ih₂ =>
    obtain ⟨hnot, hsupertypes⟩ := ih₁ hdone hdone₁
    have htop := not_looped_of_supertypes hd hsupertypes
    obtain ⟨hdone', hrest⟩ := ih₂ (List.forall_mem_cons.2 ⟨htop, hnot⟩) h
    exact ⟨hdone', List.forall_mem_cons.2 ⟨htop, hrest⟩⟩

/-- Where the search stands: the path is a way along supertypes between declared types, on which no
type stands twice, and its last type lists those to do. -/
structure Stands (c : Catalog) (path todo : List TypeName) : Prop where
  /-- each type of the path lists the next one; the innermost one is at the front -/
  linked : List.IsChain c.Links path.reverse
  /-- no type stands twice on the path -/
  nodup : path.Nodup
  /-- the innermost type lists those to do -/
  next : ∀ p ∈ path.head?, ∀ t ∈ todo, c.Derives p t

/-- Outside of all types every list may be to do. -/
theorem stands_nil (c : Catalog) (todo : List TypeName) : c.Stands [] todo :=
  ⟨.nil, .nil, fun _ hp => by cases hp⟩

/-- A type to do may be left out. -/
theorem Stands.skip (h : c.Stands path (t :: todo)) : c.Stands path todo :=
  ⟨h.linked, h.nodup, fun p hp u hu => h.next p hp u (List.mem_cons_of_mem _ hu)⟩

/-- The path can be continued with the next type to do, if that is declared. -/
theorem Stands.isChain_append (h : c.Stands path (t :: todo)) (hd : c.find? t = some d) :
    List.IsChain c.Links (path.reverse ++ [t]) := by
  refine List.isChain_append.2 ⟨h.linked, .singleton t, ?_⟩
  intro p hp u hu
  rw [List.getLast?_reverse] at hp
  obtain rfl := Option.some.inj hu
  exact ⟨h.next p hp t List.mem_cons_self, declares_of_find? hd⟩

/-- One step further in: a declared type that is not on the path is put on it, and then its
supertypes are to do. -/
theorem Stands.enter (h : c.Stands path (t :: todo)) (hd : c.find? t = some d) (ht : t ∉ path) :
    c.Stands (t :: path) d.supertypes := by
  refine ⟨?_, List.nodup_cons.2 ⟨ht, h.nodup⟩, ?_⟩
  · rw [List.reverse_cons]
    exact h.isChain_append hd
  · intro p hp u hu
    obtain rfl := Option.some.inj hp
    exact ⟨d, hd, hu⟩

/-- From a type of the path on, the path closes to a circle if the type is met again. -/
theorem Stands.exists_circle (h : c.Stands path (t :: todo)) (hd : c.find? t = some d)
    (ht : t ∈ path) : ∃ first others,
      (InheritanceCycle.through (path.reverse.dropWhile (· ≠ t))).types =
        first :: (others ++ [first]) ∧ c.Circle first others := by
  obtain ⟨rest, hrest⟩ := InheritanceCycle.exists_dropWhile_eq_cons (List.mem_reverse.2 ht)
  have hsuffix := List.dropWhile_suffix (l := path.reverse) fun u => decide (u ≠ t)
  rw [hrest] at hsuffix ⊢
  refine InheritanceCycle.circle_through ?_ ?_
  · obtain ⟨before, hbefore⟩ := hsuffix
    have hlinked := h.isChain_append hd
    rw [← hbefore, List.append_assoc] at hlinked
    exact hlinked.right_of_append
  · exact (List.nodup_reverse.2 h.nodup).sublist hsuffix.sublist

/-- A search that complains has found a circle. By induction along the search, with `Stands` as the
invariant: the complaint comes from the step at which a type of the path is met again. -/
theorem exists_circle_of_search {e : InheritanceCycle} (hstands : c.Stands path todo)
    (h : c.search path done todo = .error e) :
    ∃ first others, e.types = first :: (others ++ [first]) ∧ c.Circle first others := by
  fun_induction search c path done todo generalizing e with
  | case1 => cases h
  | case2 path done t rest hnone ih => exact ih hstands.skip h
  | case3 path done t rest d hd ht ih => exact ih hstands.skip h
  | case4 path done t rest d hd ht hmem =>
    cases h
    exact hstands.exists_circle hd hmem
  | case5 path done t rest d hd ht hmem e' he' ih =>
    cases h
    exact ih (hstands.enter hd hmem) he'
  | case6 path done t rest d hd ht hmem done₁ hdone₁ ih₁ ih₂ => exact ih₂ hstands.skip h

/-- The check complains about what the search from all declared types complains about. -/
theorem checkAcyclic_eq_error_iff {e : InheritanceCycle} :
    c.checkAcyclic = .error e ↔ c.search [] [] (c.types.map (·.name)) = .error e := by
  rw [checkAcyclic]
  cases c.search [] [] (c.types.map (·.name)) <;> simp [Except.map]

/-- The check passes exactly if there is no circle. -/
theorem checkAcyclic_cases (c : Catalog) :
    (c.checkAcyclic = .ok () ∧ c.Acyclic) ∨ (∃ e, c.checkAcyclic = .error e) ∧ ¬c.Acyclic := by
  rcases h : c.search [] [] (c.types.map (·.name)) with e | done
  · obtain ⟨first, others, -, hcircle⟩ := exists_circle_of_search (c.stands_nil _) h
    refine Or.inr ⟨⟨e, checkAcyclic_eq_error_iff.2 h⟩, ?_⟩
    intro hacyclic
    exact hacyclic first hcircle.transGen
  · obtain ⟨-, hnot⟩ := not_looped_of_search (fun t ht => (List.not_mem_nil ht).elim) h
    exact Or.inl ⟨by rw [checkAcyclic, h]; rfl, acyclic_of_not_looped fun d hd =>
      hnot d.name (List.mem_map_of_mem hd)⟩

/-- The check accepts exactly the catalogs without circles. -/
theorem checkAcyclic_eq_ok_iff : c.checkAcyclic = .ok () ↔ c.Acyclic := by
  rcases c.checkAcyclic_cases with ⟨hok, hacyclic⟩ | ⟨⟨e, he⟩, hcircle⟩
  · simp [hok, hacyclic]
  · simp [he, hcircle]

/-- Whether there is a circle does not depend on the order of the declarations, though which circle
is reported first may. -/
theorem acyclic_congr (h : c.find? = c'.find?) : c.Acyclic ↔ c'.Acyclic := by
  have hderives : c.Derives = c'.Derives := by
    funext t u
    rw [Derives, Derives, h]
  rw [Acyclic, Acyclic, hderives]

/-- **The check for circles is exact.** It passes exactly if no declared type comes back to itself
along declared superclasses and interfaces. If it complains, then about a circle, which it names
type by type, from the smallest one once round and back to it. -/
theorem checkAcyclic_exact (c : Catalog) :
    (c.checkAcyclic = .ok () ↔ ∀ t, ¬TransGen c.Links t t) ∧
      ∀ e, c.checkAcyclic = .error e →
        ∃ first others, e.types = first :: (others ++ [first]) ∧ c.Circle first others := by
  constructor
  · rw [checkAcyclic_eq_ok_iff, acyclic_iff_links]
  · intro e he
    exact exists_circle_of_search (c.stands_nil _) (checkAcyclic_eq_error_iff.1 he)

/-- Three types, each of which lists the next one; the search meets the smallest one second. -/
def rings : Catalog where
  types :=
    [⟨⟨"a", "Clasp"⟩, .class, some ⟨"a", "Band"⟩, [⟨"lib", "Metal"⟩], []⟩,
      ⟨⟨"a", "Band"⟩, .interface, none, [⟨"a", "Gem"⟩, ⟨"a", "Clasp"⟩], []⟩,
      ⟨⟨"a", "Gem"⟩, .interface, none, [⟨"lib", "Stone"⟩, ⟨"a", "Clasp"⟩], []⟩]
  signatures := []
  nodup_names := by decide

/-- The circle of all three is found before the smaller one, and it is written from the smallest
type on. -/
theorem rings_circle :
    rings.checkAcyclic = .error ⟨[⟨"a", "Band"⟩, ⟨"a", "Gem"⟩, ⟨"a", "Clasp"⟩, ⟨"a", "Band"⟩]⟩ ∧
      rings.Circle ⟨"a", "Band"⟩ [⟨"a", "Gem"⟩, ⟨"a", "Clasp"⟩] := by
  have hcomplains : rings.checkAcyclic =
      .error ⟨[⟨"a", "Band"⟩, ⟨"a", "Gem"⟩, ⟨"a", "Clasp"⟩, ⟨"a", "Band"⟩]⟩ := by cbv
  obtain ⟨first, others, htypes, hcircle⟩ := rings.checkAcyclic_exact.2 _ hcomplains
  obtain ⟨rfl, hothers⟩ := List.cons_eq_cons.1 htypes
  have hlast : [⟨"a", "Gem"⟩, ⟨"a", "Clasp"⟩] = others := (List.append_inj' hothers rfl).1
  exact ⟨hcomplains, hlast ▸ hcircle⟩

end Catalog

end PlatformWiring
