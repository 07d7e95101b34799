import PlatformWiring.Proofs.Coverage
import PlatformWiring.Proofs.Requirements
import PlatformWiring.Proofs.TypeName
import PlatformWiring.Wiring.Plan

/-!
# A coverage check, pair by pair

A pair of an actions type and a platform is judged by what the lookup answers about that pair, and
the issues of a check are those of its pairs, one after the other. The name of an implementation
gives away the pair that it belongs to, so no two pairs have an issue about the same type, no two
ask for the same stub, and what is said about one pair does not depend on the answers about any
other. The stubs are the warnings: each warning is one type that can be made.
-/

namespace PlatformWiring

/-- The base type that the finding is about. -/
def Finding.base : Finding → TypeName
  | .missing _ base => base
  | .unimplemented _ base _ => base
  | .mismatch _ expected _ => expected

/-- The warning that a stub will stand in for the implementation. -/
def StubRequest.warning (req : StubRequest) : Issue := ⟨req.platform, .missing req.stub req.base⟩

namespace TypeLookup

variable {l l' : TypeLookup} {base : TypeName} {p : Platform}

/-- What is found about a base type on a platform, going by the answers of the lookup. The four
cases exclude each other, so this says what has to be found without saying how it is computed. -/
inductive Finds (l : TypeLookup) (base : TypeName) (p : Platform) : List Finding → Prop
  /-- the implementation is there and can stand for the base -/
  | implemented {d : DeclaredType} (hfound : l.find? (base.onPlatform p) = some d)
    (h : l.assignable (base.onPlatform p) base = true) : Finds l base p []
  /-- the implementation is there and cannot stand for the base -/
  | mismatch {d : DeclaredType} (hfound : l.find? (base.onPlatform p) = some d)
    (h : l.assignable (base.onPlatform p) base = false) :
    Finds l base p [.mismatch (base.onPlatform p) base d.mainSupertype]
  /-- the implementation is missing, and the base leaves nothing without a body -/
  | missing (hnone : l.find? (base.onPlatform p) = none) (h : l.unimplemented base = []) :
    Finds l base p [.missing (base.onPlatform p) base]
  /-- the implementation is missing, and each of these members has no body -/
  | unimplemented (hnone : l.find? (base.onPlatform p) = none) (h : l.unimplemented base ≠ []) :
    Finds l base p ((l.unimplemented base).map (.unimplemented (base.onPlatform p) base))

/-- The lookups give the same answers about the pair. -/
structure AgreesAt (l l' : TypeLookup) (base : TypeName) (p : Platform) : Prop where
  /-- about the implementation -/
  implementation : l.find? (base.onPlatform p) = l'.find? (base.onPlatform p)
  /-- about whether it can stand for the base -/
  assignable : l.assignable (base.onPlatform p) base = l'.assignable (base.onPlatform p) base
  /-- about what the base leaves without a body -/
  unimplemented : l.unimplemented base = l'.unimplemented base
  /-- about the base -/
  base : l.find? base = l'.find? base

/-- The findings about a pair, without the platform. -/
def findings (l : TypeLookup) (base : TypeName) (p : Platform) : List Finding :=
  ((l.judge base p).issues p).map (·.finding)

/-- The issues of a verdict are its findings, each with the platform. -/
theorem issues_judge (l : TypeLookup) (base : TypeName) (p : Platform) :
    (l.judge base p).issues p = (l.findings base p).map (Issue.mk p) := by
  rcases hj : l.judge base p with _ | req | fs <;>
    simp [findings, hj, Verdict.issues, Function.comp_def]

/-- What the verdict finds is what the answers say. -/
theorem finds_findings (l : TypeLookup) (base : TypeName) (p : Platform) :
    l.Finds base p (l.findings base p) := by
  rw [findings, judge]
  rcases hfound : l.find? (base.onPlatform p) with _ | d
  · rcases hall : l.unimplemented base with _ | ⟨m, ms⟩
    · exact .missing hfound hall
    · have hfinds := Finds.unimplemented hfound (by rw [hall]; exact List.cons_ne_nil m ms)
      simpa [hall, Verdict.issues, Function.comp_def] using hfinds
  · rcases ha : l.assignable (base.onPlatform p) base with _ | _
    · exact .mismatch hfound ha
    · exact .implemented hfound ha

/-- A verdict depends on these answers only. -/
theorem AgreesAt.judge_eq (h : l.AgreesAt l' base p) : l.judge base p = l'.judge base p := by
  simp only [judge, h.implementation, h.assignable, h.unimplemented, h.base]

/-- An issue is about the implementation of its base on its platform. -/
theorem eq_of_mem_issues {i : Issue} (h : i ∈ (l.judge base p).issues p) :
    i.platform = p ∧ i.finding.base = base := by
  rw [issues_judge, List.mem_map] at h
  obtain ⟨f, hf, rfl⟩ := h
  refine ⟨rfl, ?_⟩
  have hfinds := l.finds_findings base p
  generalize l.findings base p = fs at hf hfinds
  cases hfinds with
  | implemented => cases hf
  | mismatch => rw [List.mem_singleton.1 hf]; rfl
  | missing => rw [List.mem_singleton.1 hf]; rfl
  | unimplemented =>
    obtain ⟨m, -, rfl⟩ := List.mem_map.1 hf
    rfl

/-- The warnings of a pair are those of the stub that it asks for. -/
theorem filter_issues_judge (l : TypeLookup) (base : TypeName) (p : Platform) :
    ((l.judge base p).issues p).filter (fun i => !i.isError) =
      ((l.judge base p).stub?.map (·.warning)).toList := by
  rcases judge_cases l base p with ⟨hj, -, -⟩ | ⟨hj, -, -⟩ | ⟨f, fs, hj, hf⟩
  · rw [hj]
    rfl
  · rw [hj]
    rfl
  · rw [hj]
    refine List.filter_eq_nil_iff.2 fun i hi => ?_
    obtain ⟨f', hf', rfl⟩ := List.mem_map.1 hi
    have herror : (Issue.mk p f').isError = true := decide_eq_true (hf f' hf')
    rw [herror]
    exact Bool.false_ne_true

/-- A pair has no error exactly if its implementation can stand for the base or can be a stub. -/
theorem no_errors_judge_iff :
    (∀ i ∈ (l.judge base p).issues p, i.isError = false) ↔
      (∃ d, l.find? (base.onPlatform p) = some d) ∧
          l.assignable (base.onPlatform p) base = true ∨
        l.find? (base.onPlatform p) = none ∧ l.unimplemented base = [] := by
  rcases judge_cases l base p with ⟨hj, hd, ha⟩ | ⟨hj, hnone, hall⟩ | ⟨f, fs, hj, hf⟩
  · rw [hj]
    exact iff_of_true nofun (Or.inl ⟨hd, ha⟩)
  · rw [hj]
    refine iff_of_true (fun i hi => ?_) (Or.inr ⟨hnone, hall⟩)
    rw [List.mem_singleton.1 hi]
    rfl
  · refine iff_of_false (fun hno => ?_) ?_
    · have hfirst := hno ⟨p, f⟩ (by rw [hj]; exact List.mem_cons_self)
      have herror : (Issue.mk p f).isError = true := decide_eq_true (hf f List.mem_cons_self)
      rw [herror] at hfirst
      cases hfirst
    · rintro (⟨⟨d, hd⟩, ha⟩ | ⟨hnone, hall⟩)
      · simp [judge, hd, ha] at hj
      · simp [judge, hnone, hall] at hj

end TypeLookup

namespace Coverage

variable {l l' : TypeLookup} {platforms : Selection} {actions : List TypeName} {base : TypeName}
  {p : Platform}

/-! ## The issues and stubs of all pairs

A check goes through all pairs, and what it says is what it says of one pair after the other. A list
of issues can be cut down to one pair by the type that they are about, since that type belongs to no
other pair. Hence the locality: two lookups that agree about a pair give the same issues and stubs
for it, whatever they say otherwise. -/

/-- The issues of a check are those of its pairs, base by base and platform by platform. -/
theorem issues_check (l : TypeLookup) (platforms : Selection) (actions : List TypeName) :
    (check l platforms actions).issues =
      actions.flatMap fun base => platforms.toList.flatMap fun p => (l.judge base p).issues p := by
  simp only [issues, check, List.flatMap_assoc, List.flatMap_map]

/-- An issue of a check is an issue of some pair. -/
theorem mem_issues_check {i : Issue} : i ∈ (check l platforms actions).issues ↔
    ∃ base ∈ actions, ∃ p ∈ platforms.toList, i ∈ (l.judge base p).issues p := by
  simp only [issues_check, List.mem_flatMap]

/-- The warnings are those of the stubs, in the same order. -/
theorem map_warning_stubs_check (l : TypeLookup) (platforms : Selection)
    (actions : List TypeName) :
    (check l platforms actions).stubs.map (·.warning) = (check l platforms actions).warnings := by
  rw [warnings, issues_check, stubs_check, List.map_flatMap, List.filter_flatMap]
  refine List.flatMap_congr fun base _ => ?_
  rw [List.map_filterMap, List.filter_flatMap, List.filterMap_eq_flatMap_toList]
  exact List.flatMap_congr fun p _ => (l.filter_issues_judge base p).symm

/-- What a check says about a pair depends only on the answers about that pair. -/
theorem filter_issues_check_eq (h : l.AgreesAt l' base p) :
    (check l platforms actions).issues.filter (fun i => i.target = base.onPlatform p) =
      (check l' platforms actions).issues.filter (fun i => i.target = base.onPlatform p) := by
  simp only [issues_check, List.filter_flatMap]
  refine List.flatMap_congr fun base' _ => List.flatMap_congr fun p' _ => ?_
  by_cases hpair : base'.onPlatform p' = base.onPlatform p
  · obtain ⟨rfl, rfl⟩ := TypeName.onPlatform_inj hpair
    rw [h.judge_eq]
  · -- no issue of another pair is about this implementation
    have hnone : ∀ l₁ : TypeLookup, ((l₁.judge base' p').issues p').filter
        (fun i => i.target = base.onPlatform p) = [] := by
      intro l₁
      refine List.filter_eq_nil_iff.2 fun i hi htarget => hpair ?_
      rw [← TypeLookup.target_of_mem_issues hi]
      exact of_decide_eq_true htarget
    rw [hnone, hnone]

/-- So do the stubs that are asked for. -/
theorem filter_stubs_check_eq (h : l.AgreesAt l' base p) :
    (check l platforms actions).stubs.filter (fun req => req.stub = base.onPlatform p) =
      (check l' platforms actions).stubs.filter (fun req => req.stub = base.onPlatform p) := by
  simp only [stubs_check, List.filter_flatMap, List.filter_filterMap]
  refine List.flatMap_congr fun base' _ => List.filterMap_congr fun p' _ => ?_
  by_cases hpair : base'.onPlatform p' = base.onPlatform p
  · obtain ⟨rfl, rfl⟩ := TypeName.onPlatform_inj hpair
    rw [h.judge_eq]
  · have hnone : ∀ l₁ : TypeLookup, (l₁.judge base' p').stub?.filter
        (fun req => req.stub = base.onPlatform p) = none := by
      intro l₁
      refine Option.filter_eq_none_iff.2 fun req hreq hstub => hpair ?_
      obtain ⟨-, -, rfl⟩ := TypeLookup.stub?_judge_eq_some_iff.1 hreq
      exact of_decide_eq_true hstub
    rw [hnone, hnone]

/-- A check has no errors if each of its issues is a warning. -/
theorem hasErrors_eq_false_iff {c : Coverage} :
    c.hasErrors = false ↔ ∀ i ∈ c.issues, i.isError = false := by
  rw [hasErrors, List.any_eq_false]
  simp only [Bool.not_eq_true]

/-! ## The whole check

All of it is collected in one proposition about the result of a check, so that it can be stated for
any lookup. The types are in the order in which the requirements list them. -/

/-- A check says of each pair what the lookup answers about it, and says nothing else. -/
structure PairByPair (l : TypeLookup) (platforms : Selection) (actions : List TypeName)
    (c : Coverage) : Prop where
  /-- the issues are what is found about each type, and for each type about each platform -/
  issues : ∃ found : TypeName → Platform → List Finding, (∀ base p, l.Finds base p (found base p)) ∧
    c.issues = actions.flatMap fun base => platforms.toList.flatMap fun p =>
      (found base p).map (Issue.mk p)
  /-- the stubs are the warnings, in the same order -/
  warnings : c.stubs.map (·.warning) = c.warnings
  /-- a stub implements its base if that is known as an interface -/
  interfaces : ∀ req ∈ c.stubs, req.baseIsInterface = true ↔
    ∃ d, l.find? req.base = some d ∧ d.kind = .interface
  /-- issues about the same type are issues of the same pair -/
  targets : ∀ i ∈ c.issues, ∀ j ∈ c.issues, i.target = j.target →
    i.platform = j.platform ∧ i.finding.base = j.finding.base
  /-- no stub is asked for twice -/
  stubs_once : (c.stubs.map (·.stub)).Nodup
  /-- no stub has the name of a type that is there -/
  stubs_missing : ∀ req ∈ c.stubs, l.find? req.stub = none
  /-- there is no error exactly if each pair has an implementation that can stand for the base, or
  can have a stub -/
  success : c.hasErrors = false ↔ ∀ base ∈ actions, ∀ p ∈ platforms.toList,
    (∃ d, l.find? (base.onPlatform p) = some d) ∧ l.assignable (base.onPlatform p) base = true ∨
      l.find? (base.onPlatform p) = none ∧ l.unimplemented base = []
  /-- what is said about a pair depends only on the answers about that pair -/
  local_issues : ∀ l' base p, l.AgreesAt l' base p →
    c.issues.filter (fun i => i.target = base.onPlatform p) =
      (check l' platforms actions).issues.filter (fun i => i.target = base.onPlatform p)
  /-- and so does whether it gets a stub -/
  local_stubs : ∀ l' base p, l.AgreesAt l' base p →
    c.stubs.filter (fun req => req.stub = base.onPlatform p) =
      (check l' platforms actions).stubs.filter (fun req => req.stub = base.onPlatform p)

/-- **A coverage check covers every pair, one by one.** Whatever the lookup answers, the actions
types that some steps type requires are gone through in strict order, each on every selected
platform, and the check says of each pair what the answers about that pair say. -/
theorem check_pairByPair (l : TypeLookup) (platforms : Selection) (r : Requirements) :
    r.sortedActions.Pairwise TypeName.Before ∧
      (∀ a, a ∈ r.sortedActions ↔ ∃ steps actions, r.requiredBy steps = .ok actions ∧ a ∈ actions) ∧
      PairByPair l platforms r.sortedActions (check l platforms r.sortedActions) := by
  have hnodup : r.sortedActions.Nodup :=
    (TypeName.perm_sort _).nodup_iff.2 r.nodup_actionsTypes
  refine ⟨TypeName.pairwise_before_sort r.nodup_actionsTypes, fun a => ?_, ?_⟩
  · rw [Requirements.sortedActions, TypeName.mem_sort, Requirements.mem_actionsTypes]
  constructor
  case issues =>
    refine ⟨l.findings, l.finds_findings, ?_⟩
    simp only [issues_check, TypeLookup.issues_judge]
  case warnings => exact map_warning_stubs_check l platforms _
  case interfaces =>
    intro req hreq
    obtain ⟨base, -, p, -, -, -, rfl⟩ := mem_stubs_check.1 hreq
    rw [TypeLookup.stubRequest]
    rcases hfind : l.find? base with _ | d <;> simp
  case targets =>
    intro i hi j hj htarget
    obtain ⟨base, -, p, -, hi⟩ := mem_issues_check.1 hi
    obtain ⟨base', -, p', -, hj⟩ := mem_issues_check.1 hj
    rw [TypeLookup.target_of_mem_issues hi, TypeLookup.target_of_mem_issues hj] at htarget
    obtain ⟨rfl, rfl⟩ := TypeName.onPlatform_inj htarget
    obtain ⟨hplatform, hbase⟩ := TypeLookup.eq_of_mem_issues hi
    obtain ⟨hplatform', hbase'⟩ := TypeLookup.eq_of_mem_issues hj
    exact ⟨hplatform.trans hplatform'.symm, hbase.trans hbase'.symm⟩
  case stubs_once => exact nodup_stubs_check hnodup
  case stubs_missing =>
    intro req hreq
    obtain ⟨base, -, p, -, hnone, -, rfl⟩ := mem_stubs_check.1 hreq
    exact hnone
  case success =>
    rw [hasErrors_eq_false_iff]
    simp only [← TypeLookup.no_errors_judge_iff, mem_issues_check]
    constructor
    · exact fun h base hbase p hp i hi => h i ⟨base, hbase, p, hp, hi⟩
    · rintro h i ⟨base, hbase, p, hp, hi⟩
      exact h base hbase p hp i hi
  case local_issues => exact fun l' base p h => filter_issues_check_eq h
  case local_stubs => exact fun l' base p h => filter_stubs_check_eq h

end Coverage

end PlatformWiring
