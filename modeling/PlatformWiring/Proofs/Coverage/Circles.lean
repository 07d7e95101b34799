import PlatformWiring.Proofs.Coverage.Stubs
import PlatformWiring.Proofs.Hierarchy.Cycle
import PlatformWiring.Wirefile.Schema

/-!
# Stubs and circles of inheritance

A declared type may extend a type that nobody declares, and that type may be the missing
implementation of an actions type. Then its stub takes the place of an undeclared supertype, and a
walk along supertypes that ended there goes on with the base of the stub. So a project without
circles can have one once its stubs are declared.

A walk among the declared types and the stubs consists of stretches that the declarations allowed
before, joined by steps from stubs to their bases. What matters is therefore which stubs the base of
each stub leads to.
-/

namespace PlatformWiring

/-- The catalog of a Wirefile has passed the check for circles. -/
theorem Wirefile.checkAcyclic_of_catalog {w : Wirefile} {c : Catalog} (h : w.catalog = .ok c) :
    c.checkAcyclic = .ok () := by
  rw [catalog] at h
  split at h
  · cases h
  · simp only at h
    split at h
    · cases h
    · rename_i hcheck
      rwa [← Except.ok.inj h]

namespace Catalog

open Relation

variable {c c' : Catalog} {stubs : List StubRequest} {req req' : StubRequest} {t u v : TypeName}

/-- The base of the first stub is the second stub, or it derives from it by what is declared without
the stubs. This is a relation among the stubs that can be read off the project before any of them is
declared. -/
def LeadsToStub (c : Catalog) (stubs : List StubRequest) (req req' : StubRequest) : Prop :=
  req ∈ stubs ∧ req' ∈ stubs ∧ ReflTransGen c.Derives req.base req'.stub

/-- The first type leads to a stub, from there one comes to the base of another stub or of the same,
and that base leads to the second type. -/
def DerivesByStubs (c : Catalog) (stubs : List StubRequest) (t u : TypeName) : Prop :=
  ∃ req ∈ stubs, ∃ req' ∈ stubs, ReflTransGen c.Derives t req.stub ∧
    ReflTransGen (c.LeadsToStub stubs) req req' ∧ ReflTransGen c.Derives req'.base u

/-! ## Ways through stubs

A way to a type is cut where it leaves a stub. Before the first stub and after the last one it only
uses what was declared before, and so it does from the base of each stub to the next stub. For a
closed way this leaves nothing but the relation among the stubs. -/

/-- With the stubs declared, a stub derives from its base, and everything else from what it derived
from before. -/
theorem Takes.derives_iff (h : c.Takes stubs c') :
    c'.Derives t u ↔ c.Derives t u ∨ ∃ req ∈ stubs, req.stub = t ∧ req.base = u := by
  constructor
  · rintro ⟨d, hd, hu⟩
    rcases h.find?_cases hd with hold | ⟨-, req, hreq, hstub, rfl⟩
    · exact Or.inl ⟨d, hold, hu⟩
    · rw [req.supertypes_declared, List.mem_singleton] at hu
      exact Or.inr ⟨req, hreq, hstub, hu.symm⟩
  · rintro (hold | ⟨req, hreq, rfl, rfl⟩)
    · exact h.knows.derives hold
    · exact ⟨req.declared, h.find?_stub hreq, by simp⟩

theorem Takes.reach (h : c.Takes stubs c') (hreach : ReflTransGen c.Derives t u) :
    ReflTransGen c'.Derives t u :=
  ReflTransGen.mono (fun _ _ => h.knows.derives) _ _ hreach

/-- A way among the declared types and the stubs avoids the stubs, or it passes some of them. By
induction on the way, step by step at its end: an old step makes the last stretch longer, and a step
from a stub begins a new one. -/
theorem Takes.transGen_cases (h : c.Takes stubs c') (hway : TransGen c'.Derives t u) :
    TransGen c.Derives t u ∨ c.DerivesByStubs stubs t u := by
  induction hway with
  | single hstep =>
    rcases h.derives_iff.1 hstep with hold | ⟨req, hreq, rfl, rfl⟩
    · exact Or.inl (.single hold)
    · exact Or.inr ⟨req, hreq, req, hreq, .refl, .refl, .refl⟩
  | tail _ hstep ih =>
    rcases h.derives_iff.1 hstep with hold | ⟨last, hlast, rfl, rfl⟩
    · -- the last step is an old one, so it makes the last stretch longer
      rcases ih with hold' | ⟨req, hreq, req', hreq', hbefore, hstubs, hafter⟩
      · exact Or.inl (hold'.tail hold)
      · exact Or.inr ⟨req, hreq, req', hreq', hbefore, hstubs, hafter.tail hold⟩
    · -- the last step begins at a stub, so the way so far leads to that stub
      rcases ih with hold' | ⟨req, hreq, req', hreq', hbefore, hstubs, hafter⟩
      · exact Or.inr ⟨last, hlast, last, hlast, hold'.to_reflTransGen, .refl, .refl⟩
      · exact Or.inr ⟨req, hreq, last, hlast, hbefore, hstubs.tail ⟨hreq', hlast, hafter⟩, .refl⟩

/-- Where one stub leads to another one, the first one derives from it once both are declared. -/
theorem Takes.transGen_of_leadsToStub (h : c.Takes stubs c')
    (hlead : TransGen (c.LeadsToStub stubs) req req') : TransGen c'.Derives req.stub req'.stub := by
  have hstep : ∀ {req req' : StubRequest}, c.LeadsToStub stubs req req' →
      TransGen c'.Derives req.stub req'.stub := by
    rintro req req' ⟨hreq, -, hreach⟩
    exact .head' (h.derives_iff.2 (Or.inr ⟨req, hreq, rfl, rfl⟩)) (h.reach hreach)
  induction hlead with
  | single hlead => exact hstep hlead
  | tail _ hlead ih => exact ih.trans (hstep hlead)

/-- Declaring the stubs closes a circle exactly if the stubs lead to each other in one. A circle
that avoids the stubs was there before. One that passes some can be begun at any of its types, so
its last stretch and its first one are a single stretch between two stubs. -/
theorem Takes.acyclic_iff (h : c.Takes stubs c') (hc : c.Acyclic) :
    c'.Acyclic ↔ ∀ req, ¬TransGen (c.LeadsToStub stubs) req req := by
  constructor
  · intro hacyclic req hcircle
    exact hacyclic req.stub (h.transGen_of_leadsToStub hcircle)
  · intro hstubs t hcircle
    rcases h.transGen_cases hcircle with hold | ⟨req, hreq, req', hreq', hbefore, hlead, hafter⟩
    · exact hc t hold
    · -- the stretch after the last stub and the one before the first join at the type itself
      exact hstubs req (.tail' hlead ⟨hreq', hreq, hafter.trans hbefore⟩)

/-- **Stubs close a circle only among themselves.** A catalog without circles is given; every
catalog of a Wirefile is one. The stubs that a check of the required types asks for can be
declared, and then there is no circle either, unless some stubs lead to each other in one: the
base of each is the next one, or it derives from the next one by what was declared before. -/
theorem checkAcyclic_stubs_iff (c : Catalog) (platforms : Selection) (r : Requirements)
    (hc : c.checkAcyclic = .ok ()) :
    ∃ c', c.insertAll ((Coverage.check c.lookup platforms r.sortedActions).stubs.map
        (·.declared)) = .ok c' ∧
      (c'.checkAcyclic = .ok () ↔ ∀ req, ¬TransGen
        (c.LeadsToStub (Coverage.check c.lookup platforms r.sortedActions).stubs) req req) := by
  have hactions : r.sortedActions.Nodup :=
    (TypeName.perm_sort _).nodup_iff.2 r.nodup_actionsTypes
  obtain ⟨c', hc'⟩ := c.exists_takes platforms hactions
  refine ⟨c', hc', ?_⟩
  rw [checkAcyclic_eq_ok_iff]
  exact hc'.acyclic_iff (checkAcyclic_eq_ok_iff.1 hc)

/-! ## An undeclared supertype, harmless and not

In both projects a declared type extends a type that nobody declares, and the stub takes its place.
In the first one its base is elsewhere. In the second one the base is the type that extends it. -/

/-- A counter, and its implementation on one platform, which extends the missing one on the other.
-/
def counters : Wirefile where
  version := ⟨1, 0, 0, "", ""⟩
  platforms := none
  layout := .standard
  types :=
    [⟨⟨"a", "Counter"⟩, .interface, none, [], []⟩,
      ⟨⟨"a", "IOSCounter"⟩, .class, some ⟨"a", "DroidCounter"⟩, [], []⟩]
  steps := [⟨⟨"s", "Buy"⟩, [⟨"a", "Counter"⟩]⟩]

/-- The catalog of the counter. -/
def countersCatalog : Catalog where
  types := counters.types.map (·.resolve)
  signatures := counters.steps
  nodup_names := by decide

/-- The stub takes the place of the undeclared supertype, and nothing derives from itself. -/
theorem counters_stub_acyclic : ∃ c c', counters.catalog = .ok c ∧
    c.insertAll ((Coverage.check c.lookup .all c.requirements.sortedActions).stubs.map
      (·.declared)) = .ok c' ∧
    c'.assignable ⟨"a", "IOSCounter"⟩ ⟨"a", "Counter"⟩ = true ∧ c'.checkAcyclic = .ok () := by
  have hcatalog : counters.catalog = .ok countersCatalog := by cbv
  have hrequired : countersCatalog.requirements.sortedActions = [⟨"a", "Counter"⟩] := by
    decide +kernel
  have hstubs : (Coverage.check countersCatalog.lookup .all
      countersCatalog.requirements.sortedActions).stubs =
      [⟨.droid, ⟨"a", "DroidCounter"⟩, ⟨"a", "Counter"⟩, true⟩] := by
    rw [Coverage.stubs_check, hrequired]
    cbv
  obtain ⟨c', hc', hiff⟩ := countersCatalog.checkAcyclic_stubs_iff .all
    countersCatalog.requirements (Wirefile.checkAcyclic_of_catalog hcatalog)
  have hassignable : c'.assignable ⟨"a", "IOSCounter"⟩ ⟨"a", "Counter"⟩ = true := by
    rw [hstubs] at hc'
    have hfound : c'.assignable = _ := congrArg Catalog.assignable (Except.ok.inj hc').symm
    rw [hfound]
    cbv
  refine ⟨countersCatalog, c', hcatalog, hc', hassignable, hiff.2 fun req hcircle => ?_⟩
  -- the only base is declared, and it derives from nothing
  obtain ⟨next, ⟨hreq, hnext, hreach⟩, -⟩ := TransGen.head'_iff.1 hcircle
  rw [hstubs] at hreq hnext
  rw [List.mem_singleton.1 hreq, List.mem_singleton.1 hnext] at hreach
  rcases hreach.cases_head with he | ⟨s, ⟨d, hd, hs⟩, -⟩
  · exact absurd he (by decide)
  · cases hd
    exact List.not_mem_nil hs

/-- A till that extends what would be its own implementation on one platform. -/
def tills : Wirefile where
  version := ⟨1, 0, 0, "", ""⟩
  platforms := none
  layout := .standard
  types := [⟨⟨"a", "Till"⟩, .class, some ⟨"a", "IOSTill"⟩, [], []⟩]
  steps := [⟨⟨"s", "Buy"⟩, [⟨"a", "Till"⟩]⟩]

/-- The catalog of the till. -/
def tillsCatalog : Catalog where
  types := tills.types.map (·.resolve)
  signatures := tills.steps
  nodup_names := by decide

/-- That catalog is free of circles, but it has one when its stubs are declared: the till
extends its stub, and the stub extends the till. -/
theorem tills_stub_closes_circle : ∃ c c', tills.catalog = .ok c ∧
    c.insertAll ((Coverage.check c.lookup .all c.requirements.sortedActions).stubs.map
      (·.declared)) = .ok c' ∧
    c'.Derives ⟨"a", "Till"⟩ ⟨"a", "IOSTill"⟩ ∧ c'.Derives ⟨"a", "IOSTill"⟩ ⟨"a", "Till"⟩ ∧
    ∃ e, c'.checkAcyclic = .error e := by
  have hcatalog : tills.catalog = .ok tillsCatalog := by cbv
  have hrequired : tillsCatalog.requirements.sortedActions = [⟨"a", "Till"⟩] := by decide +kernel
  have hstubs : (Coverage.check tillsCatalog.lookup .all
      tillsCatalog.requirements.sortedActions).stubs =
      [⟨.ios, ⟨"a", "IOSTill"⟩, ⟨"a", "Till"⟩, false⟩,
        ⟨.droid, ⟨"a", "DroidTill"⟩, ⟨"a", "Till"⟩, false⟩] := by
    rw [Coverage.stubs_check, hrequired]
    cbv
  obtain ⟨c', hc'⟩ := tillsCatalog.exists_takes .all (hrequired ▸ List.nodup_singleton _)
  have hdown : c'.Derives ⟨"a", "Till"⟩ ⟨"a", "IOSTill"⟩ :=
    hc'.knows.derives ⟨_, rfl, by decide⟩
  have hup : c'.Derives ⟨"a", "IOSTill"⟩ ⟨"a", "Till"⟩ :=
    hc'.derives_iff.2 (Or.inr ⟨_, hstubs ▸ List.mem_cons_self, rfl, rfl⟩)
  refine ⟨tillsCatalog, c', hcatalog, hc', hdown, hup, ?_⟩
  rcases c'.checkAcyclic_cases with ⟨-, hacyclic⟩ | ⟨he, -⟩
  · exact absurd (.tail (.single hdown) hup) (hacyclic ⟨"a", "Till"⟩)
  · exact he

end Catalog

end PlatformWiring
