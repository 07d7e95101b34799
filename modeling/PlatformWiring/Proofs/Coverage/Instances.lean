import PlatformWiring.Proofs.Coverage.Members
import PlatformWiring.Proofs.Wiring.Coherence

/-!
# The objects that platform providers make

The provider of a platform makes an object of the implementation that was found for each actions
type. A check accepts an implementation if it is declared and derives from its base. It asks
neither for its kind nor for the members that it leaves without a body, so it accepts an abstract
class and an interface too, of which no object can be made.

Of a class that gives a body to whatever its supertypes leave without one, an object can be made.
The supertypes answer for themselves here, and not along the hierarchy of the class. That the
answers put together are right for the class has the same limit as for stubs: behind an interface
the class is walked level by level, while the interface on its own climbs first, and the two part
where that climb passes an interface.
-/

namespace PlatformWiring

/-! ## What a check accepts

The issues and the stubs of a check are those of all pairs, so an implementation that nothing is
said about must be told from those of other pairs. Its name does that: it gives away the base and
the platform. -/

/-- The check has raised no issue about an implementation and has asked for no stub of its name. -/
structure Coverage.Accepts (v : Coverage) (target : TypeName) : Prop where
  /-- no issue is about it -/
  quiet : ∀ i ∈ v.issues, i.target ≠ target
  /-- no stub has its name -/
  unstubbed : ∀ req ∈ v.stubs, req.stub ≠ target

/-- **What a check accepts.** An implementation is accepted exactly if it is found and can stand for
its base. Nothing else is asked of it. -/
theorem Coverage.accepts_check_iff {l : TypeLookup} {platforms : Selection}
    {actions : List TypeName} {base : TypeName} {p : Platform} (hbase : base ∈ actions)
    (hp : p ∈ platforms.toList) :
    (check l platforms actions).Accepts (base.onPlatform p) ↔
      (∃ d, l.find? (base.onPlatform p) = some d) ∧
        l.assignable (base.onPlatform p) base = true := by
  rw [← TypeLookup.issues_judge_eq_nil_iff]
  constructor
  · intro h
    refine List.eq_nil_iff_forall_not_mem.2 fun i hi => ?_
    refine h.quiet i ?_ (TypeLookup.target_of_mem_issues hi)
    rw [issues, List.mem_flatMap]
    exact ⟨(p, l.judge base p), mem_verdicts_check.2 ⟨base, hbase, hp, rfl⟩, hi⟩
  · intro h
    have hfound := (TypeLookup.issues_judge_eq_nil_iff.1 h).1
    constructor
    case quiet =>
      intro i hi htarget
      rw [issues, List.mem_flatMap] at hi
      obtain ⟨⟨p', v⟩, hv, hi⟩ := hi
      obtain ⟨base', -, -, rfl⟩ := mem_verdicts_check.1 hv
      -- the name of the implementation gives away the type and the platform
      obtain ⟨rfl, rfl⟩ :=
        TypeName.onPlatform_inj ((TypeLookup.target_of_mem_issues hi).symm.trans htarget)
      have hnone : i ∈ ([] : List Issue) := h ▸ hi
      cases hnone
    case unstubbed =>
      intro req hreq hstub
      obtain ⟨base', -, p', -, hnone, -, rfl⟩ := mem_stubs_check.1 hreq
      obtain ⟨d, hd⟩ := hfound
      have hname : base'.onPlatform p' = base.onPlatform p := hstub
      rw [hname, hd] at hnone
      cases hnone

/-! ## Of which types an object can be made

A class of which an object can be made has to answer for every member it inherits, along its whole
hierarchy. `Completes` asks for less: that each supertype is answered for. The lemmas lead a member
that the class leaves without a body back to a supertype that does, by way of a climb or by way of a
level. The climb is easy, as the one of the superclass is its end. On the level, an interface is met
that leaves the member without a body there, and by `decided_level_ne` it does so on its own, if its
climb passes no interface. -/

namespace Catalog

open Relation

variable {c : Catalog} {d : DeclaredType} {t : TypeName} {m : String}

/-- An object of the type can be made: it is declared as a class and not as an abstract one, and it
leaves no member without a body. -/
def Instantiable (c : Catalog) (t : TypeName) : Prop :=
  ∃ d, c.find? t = some d ∧ d.kind = .class ∧ c.unimplemented t = []

/-- The declared type is a class that gives a body to everything. -/
structure Completes (c : Catalog) (d : DeclaredType) : Prop where
  /-- it is a class, and not an abstract one -/
  isClass : d.kind = .class
  /-- its own members have bodies -/
  own : ∀ x ∈ d.members, x.isAbstract = false
  /-- what a supertype leaves without a body has one in the class or further up its chain -/
  inherited : ∀ s ∈ d.supertypes, ∀ m ∈ c.unimplemented s,
    decided m (c.chain [] d.name) = some false
  /-- the climb from an interface that it lists passes none -/
  passesNone : ∀ i ∈ d.interfaces, ¬c.PassesInterface i

/-- Such a class itself leaves no member without a body. -/
theorem Completes.decided_ne (h : c.Completes d) (m : String) : decided m [d] ≠ some true := by
  intro hd
  rw [decided, List.flatMap_singleton, Option.map_eq_some_iff] at hd
  obtain ⟨x, hx, habstract⟩ := hd
  rw [h.own x (List.mem_of_find?_eq_some hx)] at habstract
  cases habstract

/-- What the superclass has listed along its climb is listed along the climb of the class, behind
its own interfaces. -/
theorem decided_listed_succ (hd : c.find? t = some d) (n k : Nat) :
    decided m (c.level n (c.listed (k + 1) t)) = (decided m (c.level n d.interfaces)).or
      (decided m (c.level n (d.superclass.toList.flatMap (c.listed k)))) := by
  rw [listed_succ hd, decided_level_append]

/-- If the climb of such a class meets a member without a body first, it does so behind the class
itself, where the superclass leaves it without a body. -/
theorem Completes.mem_of_climb (h : c.Completes d) (hd : c.find? t = some d) {n : Nat}
    (hn : decided m (c.climb n t) = some true) : ∃ s ∈ d.supertypes, m ∈ c.unimplemented s := by
  cases n with
  | zero => cases hn
  | succ n =>
    rw [climb_succ hd, decided_cons] at hn
    rcases hown : decided m [d] with _ | b
    · rw [hown, Option.none_or] at hn
      rcases hs : d.superclass with _ | s
      · simp [hs] at hn
      · rw [hs, Option.toList_some, List.flatMap_singleton] at hn
        exact ⟨s, by simp [DeclaredType.supertypes, hs],
          mem_unimplemented_iff.2 (decided_hierarchy_iff.2 (Or.inl ⟨n, hn⟩))⟩
    · rw [hown, Option.some_or] at hn
      exact absurd (hown.trans hn) (h.decided_ne m)

/-- If no climb declares the member, and below the listed interfaces the lowest level that declares
it leaves it without a body, then so does a supertype. -/
theorem Completes.mem_of_level (h : c.Completes d) (hd : c.find? t = some d)
    (hclimb : ∀ n, decided m (c.climb n t) = none) {k n : Nat}
    (hn : decided m (c.level n (c.listed k t)) = some true)
    (hlower : ∀ i < n, ∀ k, decided m (c.level i (c.listed k t)) = none) :
    ∃ s ∈ d.supertypes, m ∈ c.unimplemented s := by
  cases k with
  | zero => simp [listed, climb] at hn
  | succ k =>
    have hbelow : ∀ i < n, ∀ k, decided m (c.level i d.interfaces) = none ∧
        decided m (c.level i (d.superclass.toList.flatMap (c.listed k))) = none := by
      intro i hi k
      rw [← Option.or_eq_none_iff, ← decided_listed_succ hd]
      exact hlower i hi (k + 1)
    rw [decided_listed_succ hd] at hn
    rcases hown : decided m (c.level n d.interfaces) with _ | b
    · -- the level below the superclass decides, and the superclass has no lower one either
      rw [hown, Option.none_or] at hn
      rcases hs : d.superclass with _ | s
      · simp [hs] at hn
      · simp only [hs, Option.toList_some, List.flatMap_singleton] at hn hbelow
        refine ⟨s, by simp [DeclaredType.supertypes, hs], mem_unimplemented_iff.2
          (decided_hierarchy_iff.2 (Or.inr ⟨fun k => ?_, k, n, hn, fun i hi k => ?_⟩))⟩
        · exact decided_eq_none_of_subset (climb_superclass_subset hd hs k) (hclimb (k + 1))
        · exact (hbelow i hi k).2
    · -- some interface leaves the member without a body on this level, so it does on its own
      rw [hown, Option.some_or, Option.some.injEq] at hn
      subst hn
      obtain ⟨i, hi, htrue⟩ := exists_of_decided_level_eq_some hown
      have hbefore : ∀ j < n, decided m (c.level j [i]) = none := by
        intro j hj
        exact decided_eq_none_of_subset (level_subset (by simpa using hi)) (hbelow j hj 0).1
      refine ⟨i, List.mem_append_right _ hi, ?_⟩
      by_contra hm
      exact decided_level_ne hm (h.passesNone i hi) hbefore htrue

/-- An object can be made of a class that gives a body to everything. What it left without a body, a
supertype would, and then the chain has the body by `Completes.inherited`. -/
theorem Completes.instantiable (h : c.Completes d) (hd : c.find? t = some d) :
    c.Instantiable t := by
  refine ⟨d, hd, h.isClass, List.eq_nil_iff_forall_not_mem.2 fun m hm => ?_⟩
  have hchain : ∀ s ∈ d.supertypes, m ∈ c.unimplemented s →
      decided m (c.chain [] t) = some false := by
    intro s hs hms
    rw [← name_of_find? hd]
    exact h.inherited s hs m hms
  rcases decided_hierarchy_iff.1 (mem_unimplemented_iff.1 hm) with
    ⟨n, hn⟩ | ⟨hclimb, k, n, hn, hlower⟩
  · obtain ⟨s, hs, hms⟩ := h.mem_of_climb hd hn
    exact absurd ((decided_chain_of_climb hn).symm.trans (hchain s hs hms)) (by simp)
  · obtain ⟨s, hs, hms⟩ := h.mem_of_level hd hclimb hn hlower
    have hnone := hclimb (c.chain [] t).length
    rw [decided_climb_of_le (Nat.le_refl _), hchain s hs hms] at hnone
    cases hnone

end Catalog

/-! ## What is made of accepted implementations

That an object is made is a statement about the provider: which of its methods create an object of
the type. -/

namespace Layout

/-- The provider of a platform makes an object of an implementation in the accessor of its base and
nowhere else. -/
theorem filter_creates (l : Layout) {actions : List TypeName} (hnodup : actions.Nodup)
    {base : TypeName} (hbase : base ∈ actions) (p : Platform) :
    (l.platformProvider actions p).methods.filter (·.creates (base.onPlatform p)) =
      [platformAccessor p base] := by
  have hcreates : ∀ a, (platformAccessor p a).creates (base.onPlatform p) = (a == base) := by
    intro a
    rw [Bool.eq_iff_iff, beq_iff_eq, creates_platformAccessor_iff]
    simp
  simp only [platformProvider, List.filter_map, Function.comp_def, hcreates]
  rw [List.filter_beq, List.count_eq_one_of_mem hnodup hbase]
  rfl

end Layout

namespace Catalog

open Relation

/-- **An accepted implementation is made, whether it can be or not.** Whatever the catalog, the
platforms and the layout, an implementation that a check of the required types accepts is declared
and derives from its base, and the provider of its platform makes an object of it in the accessor of
the base, and nowhere else. That can be done if the implementation is a class that gives a body to
everything. -/
theorem accepted_implementation (c : Catalog) (platforms : Selection) (r : Requirements)
    (l : Layout) {base : TypeName} (hbase : base ∈ r.sortedActions) {p : Platform}
    (hp : p ∈ platforms.toList)
    (h : (Coverage.check c.lookup platforms r.sortedActions).Accepts (base.onPlatform p)) :
    ∃ d, c.find? (base.onPlatform p) = some d ∧
      TransGen c.Derives (base.onPlatform p) base ∧
      (l.platformProvider r.sortedActions p).methods.filter (·.creates (base.onPlatform p)) =
        [Layout.platformAccessor p base] ∧
      (c.Completes d → c.Instantiable (base.onPlatform p)) := by
  obtain ⟨⟨d, hd⟩, ha⟩ := (Coverage.accepts_check_iff hbase hp).1 h
  have hnodup : r.sortedActions.Nodup :=
    (TypeName.perm_sort _).nodup_iff.2 r.nodup_actionsTypes
  refine ⟨d, hd, ?_, l.filter_creates hnodup hbase p, fun hcompletes => hcompletes.instantiable hd⟩
  exact (assignable_eq_true_iff.1 ha).resolve_left (TypeName.onPlatform_ne base p)

/-- A desk whose implementation takes the body of one member from its superclass and has one itself
for the member that the superclass leaves without. -/
def desks : Wirefile where
  version := ⟨1, 0, 0, "", ""⟩
  platforms := none
  layout := .standard
  types :=
    [⟨⟨"a", "Desk"⟩, .interface, none, [], [⟨"pay", none⟩]⟩,
      ⟨⟨"a", "Ledger"⟩, .abstractClass, none, [], [⟨"pay", none⟩, ⟨"log", some true⟩]⟩,
      ⟨⟨"a", "IOSDesk"⟩, .class, some ⟨"a", "Ledger"⟩, [⟨"a", "Desk"⟩], [⟨"log", none⟩]⟩]
  steps := [⟨⟨"s", "Buy"⟩, [⟨"a", "Desk"⟩]⟩]

/-- The catalog of the desk. -/
def desksCatalog : Catalog where
  types := desks.types.map (·.resolve)
  signatures := desks.steps
  nodup_names := by decide

/-- The provider makes an object of that implementation, and it can. -/
theorem desks_implementation_instantiable : ∃ c, desks.catalog = .ok c ∧
    (Layout.standard.platformProvider c.requirements.sortedActions .ios).methods.filter
      (·.creates ⟨"a", "IOSDesk"⟩) = [Layout.platformAccessor .ios ⟨"a", "Desk"⟩] ∧
    c.Instantiable ⟨"a", "IOSDesk"⟩ := by
  have hrequired : (⟨"a", "Desk"⟩ : TypeName) ∈ desksCatalog.requirements.sortedActions := by
    decide +kernel
  have haccepts : (Coverage.check desksCatalog.lookup .all
      desksCatalog.requirements.sortedActions).Accepts (TypeName.onPlatform ⟨"a", "Desk"⟩ .ios) :=
    (Coverage.accepts_check_iff hrequired (by decide)).2 ⟨⟨_, rfl⟩, by cbv⟩
  obtain ⟨d, hd, -, hmade, hinstance⟩ := desksCatalog.accepted_implementation .all
    desksCatalog.requirements .standard hrequired (by decide) haccepts
  refine ⟨desksCatalog, by cbv, hmade, hinstance ?_⟩
  cases hd
  constructor
  case isClass => rfl
  case own => decide
  case inherited =>
    have hledger : desksCatalog.unimplemented ⟨"a", "Ledger"⟩ = ["log"] := by cbv
    have hdesk : desksCatalog.unimplemented ⟨"a", "Desk"⟩ = ["pay"] := by cbv
    intro s hs m hm
    rcases List.mem_cons.1 hs with rfl | hs
    · rw [hledger, List.mem_singleton] at hm
      subst hm
      cbv
    · rw [List.mem_singleton.1 hs, hdesk, List.mem_singleton] at hm
      subst hm
      cbv
  case passesNone =>
    intro i hi hpass
    obtain ⟨e, s, he, hs, -⟩ := hpass.exists_superclass
    rw [List.mem_singleton.1 hi] at he
    cases he
    cases hs

/-- An interface that an abstract class implements on one platform, without a body for its
member. -/
def kiosks : Wirefile where
  version := ⟨1, 0, 0, "", ""⟩
  platforms := none
  layout := .standard
  types :=
    [⟨⟨"a", "Pay"⟩, .interface, none, [], [⟨"pay", none⟩]⟩,
      ⟨⟨"a", "IOSPay"⟩, .abstractClass, none, [⟨"a", "Pay"⟩], []⟩,
      ⟨⟨"a", "DroidPay"⟩, .class, none, [⟨"a", "Pay"⟩], [⟨"pay", none⟩]⟩]
  steps := [⟨⟨"s", "Buy"⟩, [⟨"a", "Pay"⟩]⟩]

/-- The catalog of the kiosk. -/
def kiosksCatalog : Catalog where
  types := kiosks.types.map (·.resolve)
  signatures := kiosks.steps
  nodup_names := by decide

/-- A check raises nothing at all, and yet the provider makes an object of the abstract class. -/
theorem kiosks_accepts_abstract : ∃ c, kiosks.catalog = .ok c ∧
    (Coverage.check c.lookup .all c.requirements.sortedActions).issues = [] ∧
    (Coverage.check c.lookup .all c.requirements.sortedActions).stubs = [] ∧
    Layout.platformAccessor .ios ⟨"a", "Pay"⟩ ∈
      (Layout.standard.platformProvider c.requirements.sortedActions .ios).methods ∧
    (Layout.platformAccessor .ios ⟨"a", "Pay"⟩).creates ⟨"a", "IOSPay"⟩ = true ∧
    c.unimplemented ⟨"a", "IOSPay"⟩ = ["pay"] ∧ ¬c.Instantiable ⟨"a", "IOSPay"⟩ := by
  have hrequired : kiosksCatalog.requirements.sortedActions = [⟨"a", "Pay"⟩] := by
    decide +kernel
  refine ⟨kiosksCatalog, by cbv, ?_, ?_, ?_, by decide, by cbv, ?_⟩
  · rw [hrequired]
    cbv
  · rw [Coverage.stubs_check, hrequired]
    cbv
  · rw [hrequired]
    exact List.mem_singleton_self _
  · rintro ⟨d, hd, hclass, -⟩
    cases hd
    cases hclass

end Catalog

end PlatformWiring
