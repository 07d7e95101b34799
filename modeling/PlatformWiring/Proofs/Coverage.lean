import Mathlib.Data.List.Nodup
import PlatformWiring.Coverage
import PlatformWiring.Proofs.Platform

/-!
# What a coverage check finds

A type and a platform are known from the name of the implementation, so that no two stubs
that are asked for have the same name. If no issue is an error, every type on every platform
either has an implementation that can stand for it or gets a stub.
-/

namespace PlatformWiring

/-- The stub for a base type on a platform. -/
def TypeLookup.stubRequest (l : TypeLookup) (base : TypeName) (p : Platform) : StubRequest where
  platform := p
  stub := base.onPlatform p
  base := base
  baseIsInterface := match l.find? base with
    | some d => decide (d.kind = .interface)
    | none => false

/-- The unit of a stub has the name that was asked for. -/
theorem StubRequest.name_unit (req : StubRequest) : req.unit.name = req.stub := by
  rw [StubRequest.unit]
  split <;> rfl

namespace TypeLookup

variable {l : TypeLookup} {base : TypeName} {p : Platform}

/-- A verdict is one of three: the implementation is there and can stand for the base, or a stub is
asked for, or there are findings, all of which are errors. -/
theorem judge_cases (l : TypeLookup) (base : TypeName) (p : Platform) :
    (l.judge base p = .implemented (base.onPlatform p) base ∧
      (∃ d, l.find? (base.onPlatform p) = some d) ∧
      l.assignable (base.onPlatform p) base = true) ∨
    (l.judge base p = .stub (l.stubRequest base p) ∧
      l.find? (base.onPlatform p) = none ∧ l.unimplemented base = []) ∨
    ∃ f fs, l.judge base p = .invalid (f :: fs) ∧ ∀ f' ∈ f :: fs, f'.severity = .error := by
  rw [judge]
  rcases l.find? (base.onPlatform p) with _ | d
  · rcases l.unimplemented base with _ | ⟨m, ms⟩
    · exact Or.inr (Or.inl ⟨rfl, rfl, rfl⟩)
    · refine Or.inr (Or.inr ⟨_, _, rfl, fun f' hf' => ?_⟩)
      have hmem : f' ∈ (m :: ms).map (Finding.unimplemented (base.onPlatform p) base) := hf'
      obtain ⟨m', -, rfl⟩ := List.mem_map.1 hmem
      rfl
  · by_cases ha : l.assignable (base.onPlatform p) base = true
    · exact Or.inl ⟨by simp only [ha, if_true], ⟨d, rfl⟩, ha⟩
    · refine Or.inr (Or.inr ⟨.mismatch (base.onPlatform p) base d.mainSupertype, [],
        by simp only [ha, if_false, Bool.false_eq_true], fun f' hf' => ?_⟩)
      rw [List.mem_singleton.1 hf']
      rfl

/-- A stub is asked for exactly if nobody declares the implementation and the base leaves nothing
without a body. -/
theorem stub?_judge_eq_some_iff {req : StubRequest} :
    (l.judge base p).stub? = some req ↔
      l.find? (base.onPlatform p) = none ∧ l.unimplemented base = [] ∧
        req = l.stubRequest base p := by
  rcases judge_cases l base p with ⟨h, ⟨d, hd⟩, -⟩ | ⟨h, hnone, hall⟩ | ⟨f, fs, h, hf⟩
  · simp [h, Verdict.stub?, hd]
  · simp [h, Verdict.stub?, hnone, hall, eq_comm]
  · constructor
    · intro hs
      rw [h] at hs
      cases hs
    · rintro ⟨hnone, hall, -⟩
      simp [judge, hnone, hall] at h

/-- Every issue of a verdict is about the implementation. -/
theorem target_of_mem_issues {i : Issue} (h : i ∈ (l.judge base p).issues p) :
    i.target = base.onPlatform p := by
  rw [judge] at h
  split at h
  · split at h
    · cases h
    · rw [List.mem_singleton.1 h]
      rfl
  · split at h
    · rw [List.mem_singleton.1 h]
      rfl
    · obtain ⟨f, hf, rfl⟩ := List.mem_map.1 h
      obtain ⟨m, -, rfl⟩ := List.mem_map.1 hf
      rfl

/-- A verdict has no issues exactly if the implementation is found and can stand for the base. A
stub is announced by a warning, so it is an issue as well. -/
theorem issues_judge_eq_nil_iff : (l.judge base p).issues p = [] ↔
    (∃ d, l.find? (base.onPlatform p) = some d) ∧
      l.assignable (base.onPlatform p) base = true := by
  rcases judge_cases l base p with ⟨hj, hd, ha⟩ | ⟨hj, hnone, -⟩ | ⟨f, fs, hj, -⟩
  · simp [hj, Verdict.issues, hd, ha]
  · simp [hj, Verdict.issues, hnone]
  · refine iff_of_false (by simp [hj, Verdict.issues]) ?_
    rintro ⟨⟨d, hd⟩, ha⟩
    simp [judge, hd, ha] at hj

end TypeLookup

namespace Coverage

variable {l : TypeLookup} {platforms : Selection} {actions : List TypeName}

/-- There is a verdict for each pair of a base type and a selected platform. -/
theorem mem_verdicts_check {p : Platform} {v : Verdict} :
    (p, v) ∈ (check l platforms actions).verdicts ↔
      ∃ base ∈ actions, p ∈ platforms.toList ∧ l.judge base p = v := by
  simp only [check, List.mem_flatMap, List.mem_map, Prod.mk.injEq]
  constructor
  · rintro ⟨base, hbase, p', hp', rfl, rfl⟩
    exact ⟨base, hbase, hp', rfl⟩
  · rintro ⟨base, hbase, hp, rfl⟩
    exact ⟨base, hbase, p, hp, rfl, rfl⟩

/-- The stubs are asked for base by base, and platform by platform. Checks of fixed inputs go
through this equation, for it spares the sorting and the issues. -/
theorem stubs_check : (check l platforms actions).stubs =
    actions.flatMap fun base => platforms.toList.filterMap fun p => (l.judge base p).stub? := by
  simp only [stubs, check, List.filterMap_flatMap, List.filterMap_map]
  rfl

/-- The stubs that are asked for. -/
theorem mem_stubs_check {req : StubRequest} :
    req ∈ (check l platforms actions).stubs ↔
      ∃ base ∈ actions, ∃ p ∈ platforms.toList, l.find? (base.onPlatform p) = none ∧
        l.unimplemented base = [] ∧ req = l.stubRequest base p := by
  simp only [stubs_check, List.mem_flatMap, List.mem_filterMap, TypeLookup.stub?_judge_eq_some_iff]

/-- No two stubs that are asked for have the same name: the name gives away the base and the
platform, and each pair of these is judged once. -/
theorem nodup_stubs_check (hactions : actions.Nodup) :
    ((check l platforms actions).stubs.map (·.stub)).Nodup := by
  have hpairs : (check l platforms actions).stubs =
      (actions.product platforms.toList).filterMap fun e => (l.judge e.1 e.2).stub? := by
    simp only [stubs_check, List.product, List.filterMap_flatMap, List.filterMap_map]
    rfl
  have hnodup : (actions.product platforms.toList).Nodup :=
    hactions.product (List.Nodup.filter _ (by decide))
  rw [hpairs, List.map_filterMap]
  -- two pairs of a type and a platform that ask for the same name are the same pair
  refine hnodup.filterMap fun e e' stub he he' => ?_
  obtain ⟨req, hreq, hstub⟩ := Option.map_eq_some_iff.1 (Option.mem_def.1 he)
  obtain ⟨req', hreq', hstub'⟩ := Option.map_eq_some_iff.1 (Option.mem_def.1 he')
  obtain ⟨-, -, rfl⟩ := TypeLookup.stub?_judge_eq_some_iff.1 hreq
  obtain ⟨-, -, rfl⟩ := TypeLookup.stub?_judge_eq_some_iff.1 hreq'
  obtain ⟨hbase, hp⟩ := TypeName.onPlatform_inj (hstub.trans hstub'.symm)
  exact Prod.ext hbase hp

/-- Without an error every base type is covered on every platform, by an implementation or by a
stub. -/
theorem covered_of_no_errors (h : ∀ i ∈ (check l platforms actions).issues, ¬i.isError = true)
    {base : TypeName} (hbase : base ∈ actions) {p : Platform} (hp : p ∈ platforms.toList) :
    ((∃ d, l.find? (base.onPlatform p) = some d) ∧
        l.assignable (base.onPlatform p) base = true) ∨
      l.stubRequest base p ∈ (check l platforms actions).stubs := by
  rcases TypeLookup.judge_cases l base p with ⟨-, hfound, ha⟩ | ⟨-, hnone, hall⟩ | ⟨f, fs, hj, hf⟩
  · exact Or.inl ⟨hfound, ha⟩
  · exact Or.inr (mem_stubs_check.2 ⟨base, hbase, p, hp, hnone, hall, rfl⟩)
  · -- the first finding would be an issue, and an error
    have hissue : Issue.mk p f ∈ (check l platforms actions).issues := by
      rw [issues, List.mem_flatMap]
      exact ⟨(p, l.judge base p), mem_verdicts_check.2 ⟨base, hbase, hp, rfl⟩,
        by rw [hj]; exact List.mem_map_of_mem List.mem_cons_self⟩
    have herror : (Issue.mk p f).severity = .error := hf f List.mem_cons_self
    exact absurd (decide_eq_true herror) (h _ hissue)

end Coverage

end PlatformWiring
