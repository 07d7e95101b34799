import PlatformWiring.Proofs.Coverage.Stubs
import PlatformWiring.Proofs.Hierarchy.Passing
import PlatformWiring.Wirefile.Schema

/-!
# The members of stubs

A stub is asked for if the base leaves no member without a body, but what a stub inherits is
decided along its own hierarchy, in which other stubs may stand as well. Along superclasses this
makes no difference: the first declaration in the hierarchy of the stub is also the first one in
that of some base. Below an interface it can make one. From there a type is walked level by level,
while the walk that begins with the type itself climbs along its superclasses first. So stubs
inherit no member without a body as long as no base that is derived from by way of an interface has
a climb that passes an interface, and there is a stub that does where one has.

The hierarchies are compared piece by piece. Both are climbs and levels, by
`Catalog.decided_hierarchy_iff`, and the ones with stubs are those without, with something put in
wherever a stub was undeclared before. What is put in is the stub, which has no members, and what
its base leads to, which does not leave the member without a body.
-/

namespace PlatformWiring

/-- The second list is the first one with lists put in between, none of which leaves the member
without a body. So a list with stubs is compared with the one without them: whatever decided in the
first list decides in the second, or something that was put in does. -/
inductive Spliced (m : String) : List DeclaredType → List DeclaredType → Prop
  /-- there is nothing more -/
  | nil : Spliced m [] []
  /-- a type stands in both -/
  | keep (d : DeclaredType) {ds es : List DeclaredType} (h : Spliced m ds es) :
    Spliced m (d :: ds) (d :: es)
  /-- a list is put in -/
  | insert (fs : List DeclaredType) (hfs : decided m fs ≠ some true) {ds es : List DeclaredType}
    (h : Spliced m ds es) : Spliced m ds (fs ++ es)

namespace Spliced

variable {m : String} {ds es ds' es' : List DeclaredType}

/-- Such a list is spliced from nothing. -/
theorem of_ne (h : decided m es ≠ some true) : Spliced m [] es := by
  simpa using Spliced.insert es h .nil

/-- Spliced lists can be put together. -/
theorem append (h : Spliced m ds es) (h' : Spliced m ds' es') :
    Spliced m (ds ++ ds') (es ++ es') := by
  induction h with
  | nil => exact h'
  | keep d _ ih => exact .keep d ih
  | insert fs hfs _ ih =>
    rw [List.append_assoc]
    exact .insert fs hfs ih

/-- Putting such lists in between does not leave the member without a body either. -/
theorem decided_ne (h : Spliced m ds es) (hds : decided m ds ≠ some true) :
    decided m es ≠ some true := by
  induction h with
  | nil => exact hds
  | keep d _ ih =>
    rw [decided_cons] at hds ⊢
    cases hd : decided m [d] with
    | none =>
      rw [hd, Option.none_or] at hds
      exact ih hds
    | some b =>
      rw [hd] at hds
      exact hds
  | insert fs hfs _ ih =>
    rw [decided_append]
    cases hd : decided m fs with
    | none => exact ih hds
    | some b =>
      rw [hd] at hfs
      exact hfs

end Spliced

namespace Catalog

open Relation

variable {c c' : Catalog} {stubs : List StubRequest} {req : StubRequest} {m : String}
  {t u top : TypeName} {d : DeclaredType} {ts : List TypeName}

/-- The type derives from the other one by way of an interface, which is that type or leads to
it. -/
def DerivesByInterface (c : Catalog) (t u : TypeName) : Prop :=
  ∃ s d i, ReflTransGen c.Derives t s ∧ c.find? s = some d ∧ i ∈ d.interfaces ∧
    ReflTransGen c.Derives i u

/-- What such a type derives from is behind the interface too. -/
theorem DerivesByInterface.tail (h : c.DerivesByInterface t u) {v : TypeName}
    (hv : c.Derives u v) : c.DerivesByInterface t v := by
  obtain ⟨s, d, i, hs, hd, hi, hu⟩ := h
  exact ⟨s, d, i, hs, hd, hi, hu.tail hv⟩

/-! ## More declarations

Whatever stood on a climb or on a level stands there still when there are more declarations, if at
other places. So where nothing is decided with the stubs, nothing was decided without them. -/

/-- A level below more types, with more declarations, holds what it held. -/
theorem Knows.level_subset (h : c'.Knows c) {n : Nat} {ts us : List TypeName} (hsub : ts ⊆ us) :
    c.level n ts ⊆ c'.level n us := by
  induction n generalizing ts us with
  | zero =>
    intro d hd
    obtain ⟨t, ht, hd⟩ := List.mem_filterMap.1 hd
    exact List.mem_filterMap.2 ⟨t, hsub ht, h t d hd⟩
  | succ n ih =>
    refine ih fun u hu => ?_
    obtain ⟨t, ht, hu⟩ := List.mem_flatMap.1 hu
    exact List.mem_flatMap.2
      ⟨t, hsub ht, mem_supertypesOf.2 (h.derives (mem_supertypesOf.1 hu))⟩

theorem Knows.climb_subset (h : c'.Knows c) (n : Nat) (t : TypeName) :
    c.climb n t ⊆ c'.climb n t := by
  induction n generalizing t with
  | zero => exact List.nil_subset _
  | succ n ih =>
    rcases hd : c.find? t with _ | d
    · rw [climb_of_undeclared hd]
      exact List.nil_subset _
    · rw [climb_succ hd, climb_succ (h t d hd)]
      refine List.cons_subset_cons d fun e he => ?_
      obtain ⟨s, hs, he⟩ := List.mem_flatMap.1 he
      exact List.mem_flatMap.2 ⟨s, hs, ih s he⟩

theorem Knows.listed_subset (h : c'.Knows c) (n : Nat) (t : TypeName) :
    c.listed n t ⊆ c'.listed n t := by
  intro i hi
  obtain ⟨d, hd, hi⟩ := List.mem_flatMap.1 hi
  exact List.mem_flatMap.2 ⟨d, h.climb_subset n t hd, hi⟩

/-! ## The hierarchy of a stub

A stub has no members, so its hierarchy decides what its base leads to. If it extends the base, its
climb is that of the base. If it implements the base, the base is on the first level behind it, and
further stubs may stand between the base and what it led to before. `Settles` collects what is known
of the stubs, and the three lemmas `Settles.decided_climb_ne`, `Settles.spliced_level` and
`Settles.spliced_listed` carry it along the climb, down the levels, and below the interfaces that
are listed along the climb. -/

/-- Stubs of bases that leave nothing without a body, declared in a catalog that did not declare
them. Seen from one type, no base that is derived from by way of an interface has a climb that
passes an interface. -/
structure Settles (c : Catalog) (stubs : List StubRequest) (c' : Catalog) (top : TypeName) :
    Prop where
  /-- the stubs are declared -/
  takes : c.Takes stubs c'
  /-- each base leaves nothing without a body -/
  complete : ∀ req ∈ stubs, c.unimplemented req.base = []
  /-- the climb from a base behind an interface passes none -/
  passesNone : ∀ req ∈ stubs, c'.DerivesByInterface top req.base → ¬c.PassesInterface req.base

/-- A base leaves the member at hand with a body, or undeclared. -/
theorem Settles.not_mem_unimplemented (h : c.Settles stubs c' top) (hreq : req ∈ stubs) :
    m ∉ c.unimplemented req.base := by
  rw [h.complete req hreq]
  exact List.not_mem_nil

/-- A stub says nothing about any member. -/
theorem decided_declared (req : StubRequest) (m : String) : decided m [req.declared] = none :=
  decided_of_members_eq_nil rfl

/-- What is found is what was found before, or it is a stub, or there is nothing. -/
theorem Settles.find?_cases (h : c.Settles stubs c' top) (t : TypeName) :
    (c.find? t = none ∧ c'.find? t = none) ∨ (∃ d, c.find? t = some d ∧ c'.find? t = some d) ∨
      ∃ req ∈ stubs, c.find? t = none ∧ c'.find? t = some req.declared := by
  rcases hd' : c'.find? t with _ | d
  · refine Or.inl ⟨Option.eq_none_iff_forall_not_mem.2 fun e he => ?_, rfl⟩
    rw [h.takes.knows t e he] at hd'
    cases hd'
  · rcases h.takes.find?_cases hd' with hd | ⟨hnone, req, hreq, -, rfl⟩
    · exact Or.inr (Or.inl ⟨d, hd, rfl⟩)
    · exact Or.inr (Or.inr ⟨req, hreq, hnone, rfl⟩)

/-- Behind an interface a base does not leave the member without a body, if its levels are what they
were before but for what was put in. This is the only place where it matters that its climb passes
no interface. -/
theorem Settles.decided_base_ne (h : c.Settles stubs c' top) (hreq : req ∈ stubs)
    (hbehind : c'.DerivesByInterface top req.base) {n : Nat}
    (hlower : ∀ i < n, decided m (c'.level i [req.base]) = none)
    (hspliced : Spliced m (c.level n [req.base]) (c'.level n [req.base])) :
    decided m (c'.level n [req.base]) ≠ some true := by
  refine hspliced.decided_ne ?_
  exact decided_level_ne (h.not_mem_unimplemented hreq) (h.passesNone req hreq hbehind) fun i hi =>
    decided_eq_none_of_subset (h.takes.knows.level_subset (List.Subset.refl _)) (hlower i hi)

/-- Levels are put together from those of single types. -/
theorem spliced_level_of_forall {n : Nat}
    (h : ∀ t ∈ ts, Spliced m (c.level n [t]) (c'.level n [t])) :
    Spliced m (c.level n ts) (c'.level n ts) := by
  induction ts with
  | nil =>
    rw [level_nil, level_nil]
    exact .nil
  | cons t ts ih =>
    rw [level_cons, c'.level_cons]
    exact (h t List.mem_cons_self).append (ih fun u hu => h u (List.mem_cons_of_mem _ hu))

/-- Types behind an interface lead to the same levels as before, and to stubs and what is below
them. Up to the lowest level that declares the member, these do not leave it without a body. By
induction on the level: a declared type leads on to its supertypes, as it did before, and a stub
leads on to its base, to which nothing led before. -/
theorem Settles.spliced_level (h : c.Settles stubs c' top) {n : Nat}
    (hts : ∀ t ∈ ts, c'.DerivesByInterface top t)
    (hlower : ∀ i < n, decided m (c'.level i ts) = none) :
    Spliced m (c.level n ts) (c'.level n ts) := by
  induction n generalizing ts with
  | zero =>
    refine spliced_level_of_forall fun t ht => ?_
    rcases h.find?_cases t with ⟨hd, hd'⟩ | ⟨d, hd, hd'⟩ | ⟨req, -, hd, hd'⟩
    · rw [level_of_undeclared hd, level_of_undeclared hd']
      exact .nil
    · simpa [level, hd, hd'] using Spliced.keep d .nil
    · rw [level_of_undeclared hd]
      refine .of_ne ?_
      simp [level, hd', decided_declared]
  | succ n ih =>
    refine spliced_level_of_forall fun t ht => ?_
    -- what the type derives from is behind an interface too, and one level lower
    have hbehind : ∀ u ∈ c'.supertypesOf t, c'.DerivesByInterface top u := fun u hu =>
      (hts t ht).tail (mem_supertypesOf.1 hu)
    have hnext : ∀ i < n, decided m (c'.level i (c'.supertypesOf t)) = none := by
      intro i hi
      rw [← level_succ_singleton]
      exact decided_eq_none_of_subset (level_subset (by simpa using ht))
        (hlower (i + 1) (Nat.succ_lt_succ hi))
    have hbelow := ih hbehind hnext
    rw [level_succ_singleton, level_succ_singleton]
    rcases h.find?_cases t with ⟨hd, hd'⟩ | ⟨d, hd, hd'⟩ | ⟨req, hreq, hd, hd'⟩
    · rw [supertypesOf_eq_nil hd, supertypesOf_eq_nil hd', level_nil, level_nil]
      exact .nil
    · rwa [supertypesOf_eq hd, supertypesOf_eq hd', ← supertypesOf_eq hd']
    · rw [supertypesOf_eq hd', req.supertypes_declared] at hbehind hnext hbelow ⊢
      rw [supertypesOf_eq_nil hd, level_nil]
      exact .of_ne (h.decided_base_ne hreq (hbehind _ List.mem_cons_self) hnext hbelow)

/-- A stub extends its base, or it implements it. -/
theorem declared_cases (req : StubRequest) :
    (req.declared.superclass = some req.base ∧ req.declared.interfaces = []) ∨
      (req.declared.superclass = none ∧ req.declared.interfaces = [req.base]) := by
  simp only [StubRequest.declared, StubRequest.unit]
  split
  · exact Or.inr ⟨rfl, rfl⟩
  · exact Or.inl ⟨rfl, rfl⟩

/-- A climb that meets stubs does not meet the member without a body first, if it did not before. By
induction on its length: at a stub it goes over to the climb of a base, which is complete on its
own. -/
theorem Settles.decided_climb_ne (h : c.Settles stubs c' top)
    (ht : ∀ n, decided m (c.climb n t) ≠ some true) (n : Nat) :
    decided m (c'.climb n t) ≠ some true := by
  induction n generalizing t with
  | zero => exact ht 0
  | succ n ih =>
    rcases h.find?_cases t with ⟨-, hd'⟩ | ⟨d, hd, hd'⟩ | ⟨req, hreq, -, hd'⟩
    · simp [climb_of_undeclared hd']
    · have hstep : ∀ k, c.climb (k + 1) t = d :: d.superclass.toList.flatMap (c.climb k) :=
        climb_succ hd
      rw [climb_succ hd', decided_cons]
      rcases hown : decided m [d] with _ | b
      · -- the type decides nothing, so its superclass is where the climb before went on
        rcases hs : d.superclass with _ | s
        · simp
        · simp only [hs, Option.toList_some, List.flatMap_singleton, Option.none_or] at hstep ⊢
          refine ih fun k => ?_
          have := ht (k + 1)
          rwa [hstep, decided_cons, hown, Option.none_or] at this
      · have := ht 1
        rwa [hstep, decided_cons, hown, Option.some_or] at this
    · rw [climb_succ hd', decided_cons, decided_declared, Option.none_or]
      rcases declared_cases req with ⟨hs, -⟩ | ⟨hs, -⟩
      · rw [hs, Option.toList_some, List.flatMap_singleton]
        exact ih fun k => Catalog.decided_climb_ne (h.not_mem_unimplemented hreq) k
      · simp [hs]

/-- Along a climb that does not declare the member, the interfaces lead to the same levels as before
and to what was put in. By induction on the length of the climb: the interfaces of a declared type
were listed before, and at a stub all that comes after is put in as a whole, be it what the base has
listed or the base itself. -/
theorem Settles.spliced_listed (h : c.Settles stubs c' top) (htop : ReflTransGen c'.Derives top t)
    (hclimb : ∀ k, decided m (c'.climb k t) = none) {n : Nat}
    (hlower : ∀ i < n, ∀ k, decided m (c'.level i (c'.listed k t)) = none) (k : Nat) :
    Spliced m (c.level n (c.listed k t)) (c'.level n (c'.listed k t)) := by
  induction k generalizing t with
  | zero =>
    simp only [listed, climb, List.flatMap_nil, level_nil]
    exact .nil
  | succ k ih =>
    rcases h.find?_cases t with ⟨hd, hd'⟩ | hd
    · rw [listed_of_undeclared hd, listed_of_undeclared hd', level_nil, level_nil]
      exact .nil
    obtain ⟨d, hd'⟩ : ∃ d, c'.find? t = some d := by
      rcases hd with ⟨d, -, hd'⟩ | ⟨req, -, -, hd'⟩
      · exact ⟨d, hd'⟩
      · exact ⟨_, hd'⟩
    -- the interfaces of the type stand behind an interface, and its superclass is next to climb
    have hinterfaces : Spliced m (c.level n d.interfaces) (c'.level n d.interfaces) := by
      refine h.spliced_level (fun i hi => ⟨t, d, i, htop, hd', hi, .refl⟩) fun i hi => ?_
      exact decided_eq_none_of_subset (level_subset (interfaces_subset_listed hd' 0))
        (hlower i hi 1)
    have hsuperclass : ∀ s, d.superclass = some s →
        ReflTransGen c'.Derives top s ∧ (∀ k, decided m (c'.climb k s) = none) ∧
          ∀ i < n, ∀ k, decided m (c'.level i (c'.listed k s)) = none := by
      intro s hs
      have hmem : s ∈ d.supertypes := List.mem_append_left _ (Option.mem_toList.2 hs)
      exact ⟨htop.tail ⟨d, hd', hmem⟩,
        fun k => decided_eq_none_of_subset (climb_superclass_subset hd' hs k) (hclimb (k + 1)),
        fun i hi k => decided_eq_none_of_subset
          (level_subset (listed_superclass_subset hd' hs k)) (hlower i hi (k + 1))⟩
    rcases hd with ⟨e, he, he'⟩ | ⟨req, hreq, hnone, he'⟩
    · obtain rfl : e = d := Option.some.inj (he'.symm.trans hd')
      rw [listed_succ he, listed_succ hd', level_append, c'.level_append]
      refine hinterfaces.append ?_
      rcases hs : e.superclass with _ | s
      · simp only [Option.toList_none, List.flatMap_nil, level_nil]
        exact .nil
      · obtain ⟨hreach, hup, hlower'⟩ := hsuperclass s hs
        simpa only [Option.toList_some, List.flatMap_singleton] using ih hreach hup hlower'
    · obtain rfl : req.declared = d := Option.some.inj (he'.symm.trans hd')
      rw [listed_of_undeclared hnone, level_nil, listed_succ hd']
      refine .of_ne ?_
      rcases declared_cases req with ⟨hs, hi⟩ | ⟨hs, hi⟩
      · -- a stub that extends its base continues with the base
        obtain ⟨hreach, hup, hlower'⟩ := hsuperclass req.base hs
        rw [hs, hi, List.nil_append, Option.toList_some, List.flatMap_singleton]
        refine (ih hreach hup hlower').decided_ne ?_
        refine decided_listed_ne (h.not_mem_unimplemented hreq) (fun k => ?_) (fun i hi k => ?_) k
        · exact decided_eq_none_of_subset (h.takes.knows.climb_subset k _) (hup k)
        · exact decided_eq_none_of_subset
            (h.takes.knows.level_subset (h.takes.knows.listed_subset k _)) (hlower' i hi k)
      · -- a stub that implements its base has it behind an interface
        rw [hs, hi, Option.toList_none, List.flatMap_nil, List.append_nil]
        rw [hi] at hinterfaces
        refine h.decided_base_ne hreq
          ⟨t, req.declared, req.base, htop, hd', by simp [hi], .refl⟩ (fun i hlt => ?_) hinterfaces
        have hsub := interfaces_subset_listed hd' 0
        rw [hi] at hsub
        exact decided_eq_none_of_subset (level_subset hsub) (hlower i hlt 1)

/-- **Stubs inherit no member without a body.** Whatever the catalog, declare the stubs that a check
of the required types asks for. If no base that a stub derives from by way of an interface has a
climb that passes an interface, then the stub leaves no member without a body. -/
theorem unimplemented_stub_eq_nil (c : Catalog) (platforms : Selection) (r : Requirements)
    {c' : Catalog} {stubs : List StubRequest} {req : StubRequest}
    (hstubs : (Coverage.check c.lookup platforms r.sortedActions).stubs = stubs)
    (htakes : c.insertAll (stubs.map (·.declared)) = .ok c') (hreq : req ∈ stubs)
    (hpass : ∀ other ∈ stubs, c'.DerivesByInterface req.stub other.base →
      ¬c.PassesInterface other.base) :
    c'.unimplemented req.stub = [] := by
  subst hstubs
  have hsettles : c.Settles (Coverage.check c.lookup platforms r.sortedActions).stubs c'
      req.stub := by
    refine ⟨htakes, fun other hother => ?_, hpass⟩
    obtain ⟨base, -, p, -, -, hall, rfl⟩ := Coverage.mem_stubs_check.1 hother
    exact hall
  have hnone : c.find? req.stub = none := by
    obtain ⟨base, -, p, -, hnone, -, rfl⟩ := Coverage.mem_stubs_check.1 hreq
    exact hnone
  refine List.eq_nil_iff_forall_not_mem.2 fun m hm => ?_
  rcases decided_hierarchy_iff.1 (mem_unimplemented_iff.1 hm) with
    ⟨n, hn⟩ | ⟨hclimb, k, n, hn, hlower⟩
  · refine hsettles.decided_climb_ne (fun k => ?_) n hn
    rw [climb_of_undeclared hnone]
    simp
  · refine (hsettles.spliced_listed .refl hclimb hlower k).decided_ne ?_ hn
    rw [listed_of_undeclared hnone, level_nil]
    simp

/-- An interface that extends one with a body for the member, and lists one without. -/
def purses : Catalog where
  types :=
    [⟨⟨"a", "Pay"⟩, .interface, some ⟨"a", "Cash"⟩, [⟨"a", "Audit"⟩], []⟩,
      ⟨⟨"a", "Cash"⟩, .interface, none, [], [⟨"log", false⟩]⟩,
      ⟨⟨"a", "Audit"⟩, .interface, none, [], [⟨"log", true⟩]⟩]
  signatures := [⟨⟨"s", "Buy"⟩, [⟨"a", "Pay"⟩]⟩]
  nodup_names := by decide

/-- The climb from that interface takes a single step, and the stubs find the body there first. -/
theorem purses_stub_complete : ∃ c',
    purses.insertAll ((Coverage.check purses.lookup .all
      purses.requirements.sortedActions).stubs.map (·.declared)) = .ok c' ∧
    c'.find? ⟨"a", "IOSPay"⟩ = some ⟨⟨"a", "IOSPay"⟩, .class, none, [⟨"a", "Pay"⟩], []⟩ ∧
    c'.unimplemented ⟨"a", "IOSPay"⟩ = [] := by
  have hrequired : purses.requirements.sortedActions = [⟨"a", "Pay"⟩] := by decide +kernel
  have hstubs : (Coverage.check purses.lookup .all purses.requirements.sortedActions).stubs =
      [⟨.ios, ⟨"a", "IOSPay"⟩, ⟨"a", "Pay"⟩, true⟩,
        ⟨.droid, ⟨"a", "DroidPay"⟩, ⟨"a", "Pay"⟩, true⟩] := by
    rw [Coverage.stubs_check, hrequired]
    cbv
  obtain ⟨c', hc'⟩ := purses.exists_takes .all (hrequired ▸ List.nodup_singleton _)
  have hreq : (⟨.ios, ⟨"a", "IOSPay"⟩, ⟨"a", "Pay"⟩, true⟩ : StubRequest) ∈
      (Coverage.check purses.lookup .all purses.requirements.sortedActions).stubs :=
    hstubs ▸ List.mem_cons_self
  refine ⟨c', hc', hc'.find?_stub hreq,
    purses.unimplemented_stub_eq_nil .all purses.requirements rfl hc' hreq ?_⟩
  intro other hother _
  -- the only base extends an interface that extends nothing
  have hbase : other.base = ⟨"a", "Pay"⟩ := by
    rw [hstubs] at hother
    rcases List.mem_cons.1 hother with rfl | hother
    · rfl
    · rw [List.mem_singleton.1 hother]
  rw [hbase]
  intro hpass
  obtain ⟨d, s, hd, hs, e, u, -, he, hu, -⟩ := hpass.exists_superclass
  cases hd
  cases hs
  cases he
  cases hu

/-- An interface that extends another one, which extends a third one with a body for the member. It
lists one that has no body for it. -/
def wallets : Wirefile where
  version := ⟨1, 0, 0, "", ""⟩
  platforms := none
  layout := .standard
  types :=
    [⟨⟨"a", "Pay"⟩, .interface, some ⟨"a", "Cash"⟩, [⟨"a", "Audit"⟩], []⟩,
      ⟨⟨"a", "Cash"⟩, .interface, some ⟨"a", "Coin"⟩, [], []⟩,
      ⟨⟨"a", "Coin"⟩, .interface, none, [], [⟨"log", some false⟩]⟩,
      ⟨⟨"a", "Audit"⟩, .interface, none, [], [⟨"log", none⟩]⟩]
  steps := [⟨⟨"s", "Buy"⟩, [⟨"a", "Pay"⟩]⟩]

/-- The catalog of the wallets. -/
def walletsCatalog : Catalog where
  types := wallets.types.map (·.resolve)
  signatures := wallets.steps
  nodup_names := by decide

/-- The same catalog with the stubs of the first interface. -/
def walletsStubbed : Catalog where
  types := walletsCatalog.types ++
    [⟨⟨"a", "IOSPay"⟩, .class, none, [⟨"a", "Pay"⟩], []⟩,
      ⟨⟨"a", "DroidPay"⟩, .class, none, [⟨"a", "Pay"⟩], []⟩]
  signatures := wallets.steps
  nodup_names := by decide

/-- The stubs of that interface are asked for, and they leave the member without a body: the base
climbs past the listed interface to the body, and its stubs come to that interface first. -/
theorem wallets_stub_unimplemented : ∃ c c', wallets.catalog = .ok c ∧
    c.insertAll ((Coverage.check c.lookup .all c.requirements.sortedActions).stubs.map
      (·.declared)) = .ok c' ∧
    ∃ req ∈ (Coverage.check c.lookup .all c.requirements.sortedActions).stubs,
      c'.unimplemented req.stub = ["log"] := by
  have hrequired : walletsCatalog.requirements.sortedActions = [⟨"a", "Pay"⟩] := by
    decide +kernel
  have hstubs : (Coverage.check walletsCatalog.lookup .all
      walletsCatalog.requirements.sortedActions).stubs =
      [⟨.ios, ⟨"a", "IOSPay"⟩, ⟨"a", "Pay"⟩, true⟩,
        ⟨.droid, ⟨"a", "DroidPay"⟩, ⟨"a", "Pay"⟩, true⟩] := by
    rw [Coverage.stubs_check, hrequired]
    cbv
  refine ⟨walletsCatalog, walletsStubbed, by cbv, ?_, _, hstubs ▸ List.mem_cons_self, by cbv⟩
  rw [hstubs]
  rfl

end Catalog

end PlatformWiring
