import Mathlib.Order.WellFoundedSet
import PlatformWiring.Proofs.Hierarchy.Extent
import PlatformWiring.Wirefile.Schema

/-!
# Declarations that override each other

Several supertypes of a type may declare the same member, and where one of them derives from another
it overrides what that one declares. Without circles every declaration is a most derived one or is
overridden by one. The walk through the hierarchy does not look for it. If no class up the chain
declares the member, the foremost declaration decides: the first one on the lowest level below the
interfaces that the chain lists. This one is most derived if whatever overrides a declaration is
ahead of it. An interface that is listed before another one that derives from it decides although it
is overridden.
-/

namespace PlatformWiring

namespace Catalog

open Relation

variable {c : Catalog} {t u : TypeName} {d e : DeclaredType} {m : String} {ts : List TypeName}

/-- The type is or derives from the declared type, which declares the member. -/
structure Inherits (c : Catalog) (t : TypeName) (m : String) (d : DeclaredType) : Prop where
  /-- it is declared -/
  found : c.find? d.name = some d
  /-- the type is assignable to it -/
  above : c.assignable t d.name = true
  /-- it declares the member -/
  declares : d.Declares m

/-- Among the types that declare the member for the type, nothing else derives from this one. -/
structure MostDerived (c : Catalog) (t : TypeName) (m : String) (d : DeclaredType) : Prop where
  /-- it is among them -/
  inherits : c.Inherits t m d
  /-- nothing else is assignable to it -/
  only : ∀ e, c.Inherits t m e → c.assignable e.name d.name = true → e = d

/-- Going down the levels below the interfaces that the chain lists, one comes to the first type
before one comes to the second. -/
def Ahead (c : Catalog) (t : TypeName) (d e : DeclaredType) : Prop :=
  ∃ n before after, c.level n (c.queueOf t) = before ++ d :: after ∧ e ∉ before ∧
    ∀ k < n, e ∉ c.level k (c.queueOf t)

/-- Whatever overrides a declaration of the member is ahead of it. -/
def OverridesAhead (c : Catalog) (t : TypeName) (m : String) : Prop :=
  ∀ d e, c.Inherits t m d → c.Inherits t m e → d ≠ e → c.assignable d.name e.name = true →
    c.Ahead t d e

/-! ## The foremost declaration

`Ahead` orders the declarations by the levels below the queue, and within a level by place. The
first declaration on the lowest level is ahead of all others, so among those that the type inherits
there is a foremost one, and by `decided_hierarchy_of_chain_eq_none` it decides. -/

/-- Of two types only one is ahead of the other: the levels at which they are met first would have
to be each lower than the other, or the same with each before the other. -/
theorem Ahead.eq_of_ahead (h : c.Ahead t d e) (h' : c.Ahead t e d) : d = e := by
  obtain ⟨n, before, after, hn, hbefore, hlower⟩ := h
  obtain ⟨n', before', after', hn', hbefore', hlower'⟩ := h'
  have hd : d ∈ c.level n (c.queueOf t) := by simp [hn]
  have he : e ∈ c.level n' (c.queueOf t) := by simp [hn']
  -- both stand on the same level, since neither stands below the level of the other
  obtain rfl : n = n' := by
    apply Nat.le_antisymm
    · apply Nat.le_of_not_lt
      intro hlt
      exact hlower n' hlt he
    · apply Nat.le_of_not_lt
      intro hlt
      exact hlower' n hlt hd
  rw [hn] at hn'
  rcases List.append_eq_append_iff.1 hn' with ⟨between, rfl, hsplit⟩ | ⟨between, rfl, hsplit⟩
  · cases between with
    | nil => exact (List.cons_eq_cons.1 hsplit).1
    | cons x between =>
      obtain ⟨rfl, -⟩ := List.cons_eq_cons.1 hsplit
      exact absurd (by simp) hbefore'
  · cases between with
    | nil => exact (List.cons_eq_cons.1 hsplit).1.symm
    | cons x between =>
      obtain ⟨rfl, -⟩ := List.cons_eq_cons.1 hsplit
      exact absurd (by simp) hbefore

/-- On the levels below a list of types stand declared types that these types lead to. -/
theorem reach_of_mem_level {n : Nat} (h : d ∈ c.level n ts) :
    c.find? d.name = some d ∧ ∃ q ∈ ts, ReflTransGen c.Derives q d.name := by
  induction n generalizing ts with
  | zero =>
    obtain ⟨q, hq, hd⟩ := List.mem_filterMap.1 h
    obtain rfl := name_of_find? hd
    exact ⟨hd, d.name, hq, .refl⟩
  | succ n ih =>
    obtain ⟨hd, s, hs, hreach⟩ := ih h
    obtain ⟨q, hq, hs⟩ := List.mem_flatMap.1 hs
    exact ⟨hd, q, hq, .head (mem_supertypesOf.1 hs) hreach⟩

/-- The type is assignable to what stands on these levels. -/
theorem assignable_of_mem_level {n : Nat} (h : d ∈ c.level n (c.queueOf t)) :
    c.assignable t d.name = true := by
  obtain ⟨-, q, hq, hreach⟩ := reach_of_mem_level h
  exact assignable_eq_true_iff_reach.2 ((transGen_of_mem_queueOf hq).to_reflTransGen.trans hreach)

/-- What is inherited is listed in the hierarchy. -/
theorem Inherits.mem_hierarchy (h : c.Inherits t m d) : d ∈ c.hierarchy t :=
  mem_hierarchy_iff.2 ⟨h.found, assignable_eq_true_iff_reach.1 h.above⟩

/-- A type that declares the member is not among types that say nothing about it. -/
theorem Inherits.not_mem {ds : List DeclaredType} (h : c.Inherits t m d)
    (hds : decided m ds = none) : d ∉ ds := by
  intro hd
  exact decided_eq_none_iff_not_declares.1 hds d hd h.declares

/-- If no class up the chain declares the member, then the foremost declaration decides. It is split
off the lowest level that says anything, as the first type there that declares the member. -/
theorem exists_foremost (hchain : decided m (c.chain [] t) = none) (h : ∃ d, c.Inherits t m d) :
    ∃ d, c.Inherits t m d ∧ (m ∈ c.unimplemented t ↔ decided m [d] = some true) ∧
      ∀ e, c.Inherits t m e → e ≠ d → c.Ahead t d e := by
  obtain ⟨b, hb⟩ : ∃ b, decided m (c.hierarchy t) = some b := by
    apply Option.ne_none_iff_exists'.1
    intro hnone
    obtain ⟨d, hd⟩ := h
    exact hd.not_mem hnone hd.mem_hierarchy
  obtain ⟨n, hn, hlower⟩ := (decided_hierarchy_of_chain_eq_none hchain).1 hb
  obtain ⟨before, d, after, hsplit, hbefore, hd⟩ := decided_eq_some_iff.1 hn
  have hmem : d ∈ c.level n (c.queueOf t) := by simp [hsplit]
  have hinherits : c.Inherits t m d :=
    ⟨(reach_of_mem_level hmem).1, assignable_of_mem_level hmem, declares_iff.2 ⟨b, hd⟩⟩
  refine ⟨d, hinherits, ?_, ?_⟩
  · rw [mem_unimplemented_iff, hb, hd]
  · intro e he _
    refine ⟨n, before, after, hsplit, he.not_mem hbefore, ?_⟩
    intro k hk
    exact he.not_mem (hlower k hk)

/-! ## The most derived declaration

Overriding is deriving, so without circles it is a strict order on the declared types, and there are
only finitely many of these. Below every declaration stands a minimal one then, which is most
derived. Nothing makes it the foremost one; `OverridesAhead` is what it would take. -/

/-- Without circles there is no endless way down among the declared types: a strict order on a
finite set is well-founded. -/
theorem wellFoundedOn_of_acyclic (h : c.Acyclic) :
    {d | d ∈ c.types}.WellFoundedOn fun d e => TransGen c.Derives d.name e.name := by
  have : IsStrictOrder DeclaredType fun d e => TransGen c.Derives d.name e.name :=
    { irrefl := fun d => h d.name, trans := fun _ _ _ hde hef => hde.trans hef }
  exact (List.finite_toSet c.types).wellFoundedOn

/-- Every declaration is a most derived one, or one overrides it. It is taken minimal among the
declarations that are assignable to the given one. -/
theorem exists_mostDerived (hc : c.Acyclic) (h : c.Inherits t m d) :
    ∃ top, c.MostDerived t m top ∧ c.assignable top.name d.name = true := by
  refine (wellFoundedOn_of_acyclic hc).induction
    (P := fun d => c.Inherits t m d →
      ∃ top, c.MostDerived t m top ∧ c.assignable top.name d.name = true)
    (mem_of_find? h.found) ?_ h
  intro d _ ih hd
  by_cases honly : ∀ e, c.Inherits t m e → c.assignable e.name d.name = true → e = d
  · exact ⟨d, ⟨hd, honly⟩, assignable_eq_true_iff_reach.2 .refl⟩
  · -- another declaration overrides this one, and a most derived one overrides the other
    push Not at honly
    obtain ⟨e, he, hed, hne⟩ := honly
    have hstep : TransGen c.Derives e.name d.name := by
      apply (assignable_eq_true_iff.1 hed).resolve_left
      intro hname
      exact hne (Option.some.inj (he.found.symm.trans (hname ▸ hd.found)))
    obtain ⟨top, htop, hte⟩ := ih e (mem_of_find? he.found) hstep he
    refine ⟨top, htop, assignable_eq_true_iff_reach.2 ?_⟩
    exact (assignable_eq_true_iff_reach.1 hte).trans hstep.to_reflTransGen

/-- **The foremost declaration decides.** A catalog without circles is given; every catalog of a
Wirefile is one. If neither a type nor a class up its chain declares a member, but a declared
supertype does, then the type leaves the member without a body exactly if the foremost declaration
does. Some most derived declaration overrides that one or is it. The two are the same if whatever
overrides a declaration is ahead of it. -/
theorem foremost_declaration_decides (hc : c.checkAcyclic = .ok ())
    (hchain : ∀ d ∈ c.chain [] t, ¬d.Declares m) (h : ∃ d, c.Inherits t m d) :
    ∃ d top, c.Inherits t m d ∧ (m ∈ c.unimplemented t ↔ decided m [d] = some true) ∧
      (∀ e, c.Inherits t m e → e ≠ d → c.Ahead t d e) ∧
      c.MostDerived t m top ∧ c.assignable top.name d.name = true ∧
      (c.OverridesAhead t m → top = d) := by
  obtain ⟨d, hd, hdecides, hforemost⟩ :=
    exists_foremost (decided_eq_none_iff_not_declares.2 hchain) h
  obtain ⟨top, htop, hoverrides⟩ := exists_mostDerived (checkAcyclic_eq_ok_iff.1 hc) hd
  refine ⟨d, top, hd, hdecides, hforemost, htop, hoverrides, ?_⟩
  intro hahead
  by_contra hne
  exact hne ((hahead top d htop.inherits hd hne hoverrides).eq_of_ahead
    (hforemost top htop.inherits hne))

/-- The interface that leaves the member without a body. -/
def pay : TypeEntry := ⟨⟨"a", "Pay"⟩, .interface, none, [], [⟨"pay", none⟩]⟩

/-- The interface that overrides it and gives a body. -/
def latePay : TypeEntry :=
  ⟨⟨"a", "LatePay"⟩, .interface, none, [⟨"a", "Pay"⟩], [⟨"pay", some false⟩]⟩

/-- A card that lists interfaces. -/
def card (listed : List TypeName) : Wirefile where
  version := ⟨1, 0, 0, "", ""⟩
  platforms := none
  layout := .standard
  types := [⟨⟨"a", "Card"⟩, .class, none, listed, []⟩, pay, latePay]
  steps := []

/-- The card itself declares nothing. -/
theorem declares_card_cases {listed : List TypeName}
    (hd : d ∈ (card listed).types.map (·.resolve)) (h : d.Declares "pay") :
    d = pay.resolve ∨ d = latePay.resolve := by
  simp only [card, List.map_cons, List.map_nil, List.mem_cons, List.not_mem_nil, or_false] at hd
  rcases hd with rfl | rfl | rfl
  · obtain ⟨x, hx, -⟩ := h
    cases hx
  · exact Or.inl rfl
  · exact Or.inr rfl

/-- If the card lists the overriding interface first, it has the body. -/
theorem card_takes_most_derived : ∃ c,
    (card [latePay.name, pay.name]).catalog = .ok c ∧
      c.MostDerived ⟨"a", "Card"⟩ "pay" latePay.resolve ∧
      "pay" ∉ c.unimplemented ⟨"a", "Card"⟩ := by
  let c : Catalog :=
    ⟨(card [latePay.name, pay.name]).types.map (·.resolve), [], by decide⟩
  have hcases : ∀ d, c.Inherits ⟨"a", "Card"⟩ "pay" d → d = pay.resolve ∨ d = latePay.resolve :=
    fun d hd => declares_card_cases (mem_of_find? hd.found) hd.declares
  have hlate : c.Inherits ⟨"a", "Card"⟩ "pay" latePay.resolve :=
    ⟨by cbv, by cbv, ⟨"pay", false⟩, List.mem_singleton_self _, rfl⟩
  have hchain : c.chain [] ⟨"a", "Card"⟩ =
      [⟨⟨"a", "Card"⟩, .class, none, [latePay.name, pay.name], []⟩] := by cbv
  have hahead : c.OverridesAhead ⟨"a", "Card"⟩ "pay" := by
    intro d e hd he hne hde
    rcases hcases d hd with rfl | rfl
    · rcases hcases e he with rfl | rfl
      · exact absurd rfl hne
      · -- the overridden interface does not derive from the other one
        have hnot : c.assignable pay.name latePay.name = false := by cbv
        exact absurd (hde.symm.trans hnot) (by decide)
    · rcases hcases e he with rfl | rfl
      · exact ⟨0, [], [pay.resolve], by cbv, List.not_mem_nil, fun k hk => absurd hk (by omega)⟩
      · exact absurd rfl hne
  obtain ⟨d, top, hd, hdecides, -, htop, -, hsame⟩ :=
    foremost_declaration_decides (c := c) (by cbv) (by simp [hchain, DeclaredType.Declares])
      ⟨_, hlate⟩
  obtain rfl := hsame hahead
  rcases hcases top hd with rfl | rfl
  · -- the overriding interface derives from the other one, so that one is not most derived
    exact absurd (htop.only _ hlate (by cbv)) (by decide)
  · refine ⟨c, by cbv, htop, ?_⟩
    rw [hdecides]
    simp [decided, latePay, TypeEntry.resolve, MemberEntry.resolve]

/-- If the card lists the overridden interface first, it is left without the body that the only most
derived declaration gives. -/
theorem card_misses_most_derived : ∃ c,
    (card [pay.name, latePay.name]).catalog = .ok c ∧
      (∀ d ∈ c.chain [] ⟨"a", "Card"⟩, ¬d.Declares "pay") ∧
      (∃ d, c.Inherits ⟨"a", "Card"⟩ "pay" d) ∧
      ¬∃ d, c.MostDerived ⟨"a", "Card"⟩ "pay" d ∧
        ("pay" ∈ c.unimplemented ⟨"a", "Card"⟩ ↔ decided "pay" [d] = some true) := by
  let c : Catalog :=
    ⟨(card [pay.name, latePay.name]).types.map (·.resolve), [], by decide⟩
  have hlate : c.Inherits ⟨"a", "Card"⟩ "pay" latePay.resolve :=
    ⟨by cbv, by cbv, ⟨"pay", false⟩, List.mem_singleton_self _, rfl⟩
  have hchain : c.chain [] ⟨"a", "Card"⟩ =
      [⟨⟨"a", "Card"⟩, .class, none, [pay.name, latePay.name], []⟩] := by cbv
  have hleft : c.unimplemented ⟨"a", "Card"⟩ = ["pay"] := by cbv
  refine ⟨c, by cbv, by simp [hchain, DeclaredType.Declares], ⟨_, hlate⟩, ?_⟩
  rintro ⟨d, hd, hiff⟩
  rcases declares_card_cases (mem_of_find? hd.inherits.found) hd.inherits.declares with rfl | rfl
  · exact absurd (hd.only _ hlate (by cbv)) (by decide)
  · rw [hleft] at hiff
    exact absurd (hiff.1 List.mem_cons_self) (by decide)

end Catalog

end PlatformWiring
