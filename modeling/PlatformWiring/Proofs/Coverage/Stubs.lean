import PlatformWiring.Proofs.Coverage
import PlatformWiring.Proofs.Hierarchy.Reach
import PlatformWiring.Proofs.Requirements
import PlatformWiring.Proofs.TypeName
import PlatformWiring.Wiring.Plan

/-!
# Declaring the stubs

A project that declares the stubs that were asked for, each as a class without members, gets a
catalog again, since a stub has a name that no declared type and no other stub has. In that catalog
every stub can stand for its base. What was an implementation before is one still, although a stub
may have the name of a supertype that was undeclared before.
-/

namespace PlatformWiring

/-- What a project declares when it takes over a stub: its class, which has no members. -/
def StubRequest.declared (r : StubRequest) : DeclaredType where
  name := r.unit.name
  kind := .class
  superclass := r.unit.superclass
  interfaces := r.unit.interfaces
  members := []

namespace StubRequest

@[simp] theorem name_declared (r : StubRequest) : r.declared.name = r.stub := r.name_unit

/-- A stub derives from its base and from nothing else. -/
@[simp] theorem supertypes_declared (r : StubRequest) : r.declared.supertypes = [r.base] := by
  rw [DeclaredType.supertypes, declared, unit]
  split <;> rfl

end StubRequest

namespace Catalog

variable {c c' : Catalog} {stubs : List StubRequest} {t : TypeName} {d : DeclaredType}
  {req : StubRequest}

/-- The other catalog is the first one with the stubs declared after everything else. -/
def Takes (c : Catalog) (stubs : List StubRequest) (c' : Catalog) : Prop :=
  c.insertAll (stubs.map (·.declared)) = .ok c'

/-- The stubs come after everything that was declared before. -/
theorem Takes.types (h : c.Takes stubs c') : c'.types = c.types ++ stubs.map (·.declared) := by
  rcases c.insertAll_cases (stubs.map (·.declared)) with ⟨-, c₁, hc₁, htypes, -⟩ | ⟨-, e, he⟩
  · cases hc₁.symm.trans h
    exact htypes
  · cases he.symm.trans h

/-- What is found was declared before, or it is a stub that was not. The first declaration of a name
is found, and the old ones come first. -/
theorem Takes.find?_cases (h : c.Takes stubs c') (hd : c'.find? t = some d) :
    c.find? t = some d ∨ c.find? t = none ∧ ∃ req ∈ stubs, req.stub = t ∧ req.declared = d := by
  obtain ⟨hmem, rfl⟩ := find?_eq_some_iff.1 hd
  rw [h.types] at hmem
  rcases List.mem_append.1 hmem with hold | hnew
  · exact Or.inl (find?_eq_some_iff.2 ⟨hold, rfl⟩)
  · obtain ⟨req, hreq, rfl⟩ := List.mem_map.1 hnew
    refine Or.inr ⟨Option.eq_none_iff_forall_not_mem.2 fun e he => ?_, req, hreq,
      req.name_declared.symm, rfl⟩
    obtain ⟨hold, hname⟩ := find?_eq_some_iff.1 he
    -- no type is declared twice
    have hnodup := c'.nodup_names
    rw [h.types, List.map_append, List.nodup_append] at hnodup
    exact hnodup.2.2 e.name (List.mem_map_of_mem hold) _ (List.mem_map_of_mem hnew) hname

/-- What was declared before is found as before. -/
theorem Takes.knows (h : c.Takes stubs c') : c'.Knows c := by
  intro t d hd
  obtain ⟨hmem, hname⟩ := find?_eq_some_iff.1 hd
  exact find?_eq_some_iff.2 ⟨h.types ▸ List.mem_append_left _ hmem, hname⟩

/-- A stub is found as it was declared. -/
theorem Takes.find?_stub (h : c.Takes stubs c') (hreq : req ∈ stubs) :
    c'.find? req.stub = some req.declared :=
  find?_eq_some_iff.2 ⟨h.types ▸ List.mem_append_right _ (List.mem_map_of_mem hreq),
    req.name_declared⟩

/-- A stub can stand for its base. -/
theorem Takes.assignable_stub (h : c.Takes stubs c') (hreq : req ∈ stubs) :
    c'.assignable req.stub req.base = true :=
  assignable_eq_true_iff.2 (Or.inr (.single
    ⟨req.declared, h.find?_stub hreq, by rw [req.supertypes_declared]; exact List.mem_cons_self⟩))

/-- The stubs that a check asks for can be declared. They have names that nothing else has: among
each other they differ, and a stub is asked for only if nobody declares its name. -/
theorem exists_takes (c : Catalog) (platforms : Selection) {actions : List TypeName}
    (hactions : actions.Nodup) :
    ∃ c', c.Takes (Coverage.check c.lookup platforms actions).stubs c' := by
  set stubs := (Coverage.check c.lookup platforms actions).stubs with hstubs
  have hnames : (stubs.map (·.declared)).map (·.name) = stubs.map (·.stub) := by
    rw [List.map_map]
    exact List.map_congr_left fun req _ => req.name_declared
  have hnodup : ((c.types ++ stubs.map (·.declared)).map (·.name)).Nodup := by
    rw [List.map_append, List.nodup_append, hnames]
    refine ⟨c.nodup_names, Coverage.nodup_stubs_check hactions, fun t ht stub hstub he => ?_⟩
    obtain ⟨d, hd, rfl⟩ := List.mem_map.1 ht
    obtain ⟨req, hreq, rfl⟩ := List.mem_map.1 hstub
    obtain ⟨base, -, p, -, hnone, -, rfl⟩ := Coverage.mem_stubs_check.1 hreq
    -- a stub is asked for only if nothing is found
    have hfound : c.find? d.name = some d := find?_eq_some_iff.2 ⟨hd, rfl⟩
    rw [he] at hfound
    exact Option.some_ne_none d (hfound.symm.trans hnone)
  rcases c.insertAll_cases (stubs.map (·.declared)) with ⟨-, c', hc', -, -⟩ | ⟨hdup, -⟩
  · exact ⟨c', hc'⟩
  · exact absurd hnodup hdup

/-- An implementation that is declared and can stand for its base is judged to be one. -/
theorem judge_of_assignable {base : TypeName} {p : Platform}
    (hd : c.find? (base.onPlatform p) = some d)
    (ha : c.assignable (base.onPlatform p) base = true) :
    c.lookup.judge base p = .implemented (base.onPlatform p) base := by
  simp only [TypeLookup.judge, lookup, hd, ha, if_true]

/-- **Declaring the stubs repairs coverage and never breaks it.** Whatever the catalog, every stub
that a check of the required types asks for can be declared. Afterwards each type that got a stub on
a platform has an implementation there, which is the stub, and each type that raised no issue on a
platform raises none. -/
theorem stubs_repair_coverage (c : Catalog) (platforms : Selection) (r : Requirements) :
    ∃ c', c.insertAll ((Coverage.check c.lookup platforms r.sortedActions).stubs.map
        (·.declared)) = .ok c' ∧
      (∀ base ∈ r.sortedActions, ∀ p ∈ platforms.toList, ∀ req,
        (c.lookup.judge base p).stub? = some req →
          c'.find? (base.onPlatform p) = some req.declared ∧
          c'.assignable (base.onPlatform p) base = true) ∧
      ∀ base p, (c.lookup.judge base p).issues p = [] → (c'.lookup.judge base p).issues p = [] := by
  have hactions : r.sortedActions.Nodup :=
    (TypeName.perm_sort _).nodup_iff.2 r.nodup_actionsTypes
  obtain ⟨c', hc'⟩ := c.exists_takes platforms hactions
  refine ⟨c', hc', fun base hbase p hp req hreq => ?_, fun base p hissues => ?_⟩
  · obtain ⟨hnone, hall, rfl⟩ := TypeLookup.stub?_judge_eq_some_iff.1 hreq
    have hmem := Coverage.mem_stubs_check.2 ⟨base, hbase, p, hp, hnone, hall, rfl⟩
    exact ⟨hc'.find?_stub hmem, hc'.assignable_stub hmem⟩
  · obtain ⟨⟨d, hd⟩, ha⟩ := TypeLookup.issues_judge_eq_nil_iff.1 hissues
    rw [judge_of_assignable (hc'.knows _ d hd) (hc'.knows.assignable ha)]
    rfl

/-- A cart, and its implementation on one platform, which extends the missing one on the other. -/
def carts : Catalog where
  types :=
    [⟨⟨"a", "Cart"⟩, .interface, none, [], [⟨"open", false⟩]⟩,
      ⟨⟨"a", "IOSCart"⟩, .class, some ⟨"a", "DroidCart"⟩, [⟨"a", "Cart"⟩], []⟩]
  signatures := [⟨⟨"s", "Buy"⟩, [⟨"a", "Cart"⟩]⟩]
  nodup_names := by decide

/-- The missing implementation gets a stub, and the other one is an implementation still. -/
theorem carts_stub_repairs : ∃ c',
    carts.insertAll ((Coverage.check carts.lookup .all carts.requirements.sortedActions).stubs.map
      (·.declared)) = .ok c' ∧
    c'.find? ⟨"a", "DroidCart"⟩ =
      some ⟨⟨"a", "DroidCart"⟩, .class, none, [⟨"a", "Cart"⟩], []⟩ ∧
    c'.assignable ⟨"a", "DroidCart"⟩ ⟨"a", "Cart"⟩ = true ∧
    (c'.lookup.judge ⟨"a", "Cart"⟩ .ios).issues .ios = [] := by
  obtain ⟨c', hc', hstub, hkeep⟩ := carts.stubs_repair_coverage .all carts.requirements
  have hrequired : (⟨"a", "Cart"⟩ : TypeName) ∈ carts.requirements.sortedActions := by
    decide +kernel
  have hasked : (carts.lookup.judge ⟨"a", "Cart"⟩ .droid).stub? =
      some ⟨.droid, ⟨"a", "DroidCart"⟩, ⟨"a", "Cart"⟩, true⟩ := by cbv
  have hquiet : (carts.lookup.judge ⟨"a", "Cart"⟩ .ios).issues .ios = [] := by cbv
  obtain ⟨hfind, hassignable⟩ := hstub _ hrequired .droid (by decide) _ hasked
  exact ⟨c', hc', hfind, hassignable, hkeep _ _ hquiet⟩

end Catalog

end PlatformWiring
