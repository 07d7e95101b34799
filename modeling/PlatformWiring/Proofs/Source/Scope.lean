import PlatformWiring.Proofs.Platform
import PlatformWiring.Proofs.Source.Text
import PlatformWiring.Wiring.Plan

/-!
# What simple names stand for

A simple name in the text of a unit stands for the unit's own type if that has the name, or else for
the type of the import line that ends in it, or else for a type of the unit's package, and only then
for one of `java.lang`. So it stands for the type that is written by it, with one exception: types
of `java.lang` get no import line, and one that was mentioned first is hidden by a mentioned type of
the unit's package.
-/

namespace PlatformWiring

/-! ## First types of a simple name

An import line ends in a full stop and a simple name. If neither the line's type nor the name holds
a full stop of its own, the name is the simple name of the type. The types that may be written by a
simple name are the first ones of each, so among them no simple name comes twice. -/

namespace Imports

/-- The import line ends in a full stop and the simple name. -/
def EndsIn (s line : String) : Bool := ('.' :: s.toList).isSuffixOf line.toList

variable {l : List TypeName} {t v : TypeName}

/-- The line of a type ends in the simple name of the type only. -/
theorem endsIn_qualified {s : String} (hs : '.' ∉ s.toList) (ht : '.' ∉ t.simple.toList) :
    EndsIn s t.qualified = true ↔ t.simple = s := by
  rw [EndsIn, List.isSuffixOf_iff_suffix, TypeName.toList_qualified]
  constructor
  · rintro ⟨before, h⟩
    have hcut : TypeName.splitAtLastStop (before ++ '.' :: s.toList) = some (before, s.toList) :=
      TypeName.splitAtLastStop_append hs
    rw [h, TypeName.splitAtLastStop_append ht] at hcut
    simp only [Option.some.injEq, Prod.mk.injEq] at hcut
    exact String.toList_inj.1 hcut.2
  · rintro rfl
    exact List.suffix_append _ _

/-- The first types are some of all, in the same order. -/
theorem firstOfEach_sublist (l : List TypeName) : (firstOfEach l).Sublist l := by
  induction l with
  | nil => exact List.Sublist.refl _
  | cons t l ih => exact (List.filter_sublist.trans ih).cons_cons t

/-- No two of the first types share a simple name. -/
theorem pairwise_firstOfEach (l : List TypeName) :
    (firstOfEach l).Pairwise fun t v => t.simple ≠ v.simple := by
  induction l with
  | nil => exact List.Pairwise.nil
  | cons t l ih =>
    refine List.pairwise_cons.2 ⟨fun v hv => ?_, ih.filter _⟩
    simpa using fun h => (of_decide_eq_true (List.mem_filter.1 hv).2) h.symm

/-- Among types that share no simple names a type is the only one with its own. -/
theorem filter_simple_eq (h : l.Pairwise fun t v => t.simple ≠ v.simple) (ht : t ∈ l) :
    l.filter (fun v => decide (v.simple = t.simple)) = [t] := by
  induction l with
  | nil => exact absurd ht List.not_mem_nil
  | cons a l ih =>
    obtain ⟨ha, hl⟩ := List.pairwise_cons.1 h
    rcases List.mem_cons.1 ht with rfl | ht
    · rw [List.filter_cons_of_pos (by simp), List.cons.injEq]
      exact ⟨rfl, List.filter_eq_nil_iff.2 fun v hv => by simpa using (ha v hv).symm⟩
    · rw [List.filter_cons_of_neg (by simpa using ha t ht)]
      exact ih hl ht

end Imports

/-! ## Looking up a simple name

A reader of the text looks a simple name up in four places, one after the other: the type declared
in the file, its import lines, its package and the implied package. The writer has only decided
which types need a line. So what has to be shown is that each type written by its simple name is
what the reader finds first. Types with an import line are, since theirs is the only line that ends
in the name. Types without one are of the package of the unit or of the implied one, and the former
hide the latter. -/

namespace SourceUnit

variable {u : SourceUnit} {t : TypeName}

/-- The import lines of the text that end in the simple name. -/
def importsOf (u : SourceUnit) (s : String) : List String :=
  u.importLines.filter (Imports.EndsIn s)

/-- What the simple name stands for in the text of the unit, where the mentioned types are all that
are known of the unit's package. Two import lines that end in it would leave it without a
meaning. -/
def denoted (u : SourceUnit) (s : String) : Option TypeName :=
  if s = u.name.simple then some u.name
  else
    match u.importsOf s with
    | [line] => (TypeName.read line).toOption
    | [] =>
      if ⟨u.name.package, s⟩ ∈ u.mentioned then some ⟨u.name.package, s⟩
      else some ⟨impliedPackage, s⟩
    | _ => none

/-- Every name in the unit was read, or it is the name that the implementation of a type like that
has on a platform. -/
def NamesRead (u : SourceUnit) : Prop :=
  ∀ t ∈ u.name :: u.mentioned,
    t.IsRead ∨ ∃ base : TypeName, base.IsRead ∧ ∃ p, t = base.onPlatform p

/-- All these names can be read, those on a platform as well. -/
theorem NamesRead.isRead (h : u.NamesRead) (ht : t ∈ u.name :: u.mentioned) : t.IsRead := by
  rcases h t ht with hr | ⟨base, hr, p, rfl⟩
  · exact hr
  · exact hr.onPlatform p

/-- A type with a simple name is mentioned, and the name is not that of the unit. -/
theorem mem_simple (h : t ∈ (Imports.ofUnit u).simple) :
    t ∈ u.mentioned ∧ t.simple ≠ u.name.simple := by
  simpa using (Imports.firstOfEach_sublist _).subset h

theorem isRead_of_mem_simple (hread : u.NamesRead) (ht : t ∈ (Imports.ofUnit u).simple) :
    t.IsRead :=
  hread.isRead (List.mem_cons_of_mem _ (mem_simple ht).1)

/-- The types that the text writes by their simple names are the unit's own and the first of each
name. -/
theorem written_eq_simple_iff :
    u.written t = t.simple ↔ t = u.name ∨ t ∈ (Imports.ofUnit u).simple := by
  rw [written, Piece.render, Imports.write]
  split
  · rename_i h
    exact iff_of_true rfl h
  · rename_i h
    refine iff_of_false (fun he => ?_) h
    have hlength := congrArg (fun s => s.toList.length) he
    simp only [TypeName.toList_qualified, List.length_append, List.length_cons] at hlength
    omega

/-- A type that is written by its simple name has the only import line that ends in it, if it needs
one, and otherwise there is none. -/
theorem importsOf_simple (hread : u.NamesRead) (ht : t ∈ (Imports.ofUnit u).simple) :
    u.importsOf t.simple =
      if (Imports.ofUnit u).NeedsLine t = true then [t.qualified] else [] := by
  have hends : ∀ v ∈ (Imports.ofUnit u).simple,
      Imports.EndsIn t.simple v.qualified = decide (v.simple = t.simple) := by
    have hstop : ∀ v ∈ (Imports.ofUnit u).simple, '.' ∉ v.simple.toList := fun v hv =>
      (isRead_of_mem_simple hread hv).parts.2.2
    intro v hv
    rw [Bool.eq_iff_iff, Imports.endsIn_qualified (hstop t ht) (hstop v hv), decide_eq_true_iff]
  -- sorting keeps the lines, and of the types that have one only this type has the name
  have hperm : (u.importsOf t.simple).Perm
      ((((Imports.ofUnit u).simple.filter ((Imports.ofUnit u).NeedsLine ·)).map
        (·.qualified)).filter (Imports.EndsIn t.simple)) := by
    rw [importsOf, importLines_eq]
    exact (List.mergeSort_perm _ _).filter _
  have honly := Imports.filter_simple_eq (Imports.pairwise_firstOfEach _) ht
  have hlines : (((Imports.ofUnit u).simple.filter ((Imports.ofUnit u).NeedsLine ·)).map
      (·.qualified)).filter (Imports.EndsIn t.simple) =
        ([t].filter ((Imports.ofUnit u).NeedsLine ·)).map (·.qualified) := by
    rw [List.filter_map, List.filter_filter, ← honly, List.filter_filter]
    refine congrArg (List.map _) (List.filter_congr fun v hv => ?_)
    rw [Function.comp_apply, hends v hv, Bool.and_comm]
  rw [hlines, List.filter_singleton] at hperm
  cases hline : (Imports.ofUnit u).NeedsLine t with
  | true =>
    rw [hline] at hperm
    exact List.perm_singleton.1 hperm
  | false =>
    rw [hline] at hperm
    exact List.perm_nil.1 hperm

/-- An import line is needed for types of all packages but the unit's own and `java.lang`. -/
theorem needsLine_iff : (Imports.ofUnit u).NeedsLine t = true ↔
    t.package ≠ u.name.package ∧ t.package ≠ impliedPackage := by
  rw [Imports.NeedsLine, Bool.and_eq_true, decide_eq_true_eq, decide_eq_true_eq]
  rfl

/-- A type with an import line is what its simple name stands for. -/
theorem denoted_of_needsLine (hread : u.NamesRead) (ht : t ∈ (Imports.ofUnit u).simple)
    (hline : (Imports.ofUnit u).NeedsLine t = true) : u.denoted t.simple = some t := by
  simp only [denoted, if_neg (mem_simple ht).2, importsOf_simple hread ht, if_pos hline,
    (isRead_of_mem_simple hread ht).read_qualified, Except.toOption]

/-- Without an import line the name stands for a type of the unit's package before one of
`java.lang`. -/
theorem denoted_of_not_needsLine (hread : u.NamesRead) (ht : t ∈ (Imports.ofUnit u).simple)
    (hline : ¬(Imports.ofUnit u).NeedsLine t = true) :
    u.denoted t.simple =
      if ⟨u.name.package, t.simple⟩ ∈ u.mentioned then some ⟨u.name.package, t.simple⟩
      else some ⟨impliedPackage, t.simple⟩ := by
  simp only [denoted, if_neg (mem_simple ht).2, importsOf_simple hread ht, if_neg hline]

/-- **A simple name stands for the type that is written by it** in the text of a unit, unless the
type is one of `java.lang`, where the unit is not, and the unit mentions a type of its own package
that has the same simple name. -/
theorem denoted_simple_iff (u : SourceUnit) (hread : u.NamesRead) {t : TypeName}
    (ht : t ∈ u.mentioned) (hwritten : u.written t = t.simple) :
    u.denoted t.simple = some t ↔
      ¬(t.package = impliedPackage ∧ u.name.package ≠ impliedPackage ∧
        ⟨u.name.package, t.simple⟩ ∈ u.mentioned) := by
  rcases written_eq_simple_iff.1 hwritten with rfl | hsimple
  · refine iff_of_true (by rw [denoted, if_pos rfl]) ?_
    rintro ⟨hpackage, hne, -⟩
    exact hne hpackage
  · by_cases hline : (Imports.ofUnit u).NeedsLine t = true
    · refine iff_of_true (denoted_of_needsLine hread hsimple hline) ?_
      rintro ⟨hpackage, -⟩
      exact (needsLine_iff.1 hline).2 hpackage
    · rw [denoted_of_not_needsLine hread hsimple hline]
      rw [needsLine_iff, not_and_or, not_not, not_not] at hline
      obtain ⟨package, simple⟩ := t
      rcases hline with rfl | rfl
      · -- a type of the unit's package is mentioned, so nothing else is meant
        rw [if_pos ht]
        exact iff_of_true rfl fun ⟨hpackage, hne, _⟩ => hne hpackage
      · split
        · rename_i hmem
          simp [hmem]
        · rename_i hmem
          simp [hmem]

/-- The actions module of a project that requires an `Override` of another package writes that one
in full, so that the annotation of the methods keeps its meaning. -/
theorem standard_override_denoted :
    (Layout.standard.actionsUnit [⟨"shop", "Override"⟩]).written ⟨"java.lang", "Override"⟩ =
        "Override" ∧
      (Layout.standard.actionsUnit [⟨"shop", "Override"⟩]).denoted "Override" =
        some ⟨"java.lang", "Override"⟩ := by
  have hread : (Layout.standard.actionsUnit [⟨"shop", "Override"⟩]).NamesRead := fun t ht =>
    Or.inl (TypeName.isRead_iff.2 (by revert t; decide))
  have hwritten : (Layout.standard.actionsUnit [⟨"shop", "Override"⟩]).written
      ⟨"java.lang", "Override"⟩ = "Override" := by decide
  exact ⟨hwritten,
    (denoted_simple_iff _ hread (t := ⟨"java.lang", "Override"⟩) (by decide) hwritten).2
      (by decide)⟩

/-- In the actions module of a project that requires `dagger.Override` it does not: the annotation
comes first and is written by its simple name, but the name stands for the other type, which is one
of the module's package. -/
theorem standard_override_hidden : ∃ r units u,
    Layout.standard.plan .all r = .ok units ∧ u ∈ units ∧ u.NamesRead ∧
      ⟨"java.lang", "Override"⟩ ∈ u.mentioned ∧
      u.written ⟨"java.lang", "Override"⟩ = "Override" ∧
      u.denoted "Override" = some ⟨"dagger", "Override"⟩ := by
  have hplan : Layout.standard.plan .all
      (.ofSignatures [⟨⟨"s", "Buy"⟩, [⟨"dagger", "Override"⟩]⟩]) =
        .ok (Layout.standard.units .all [⟨"dagger", "Override"⟩]
          [⟨⟨"s", "Buy"⟩, [⟨"dagger", "Override"⟩]⟩]) := by decide +kernel
  have hread : (Layout.standard.actionsUnit [⟨"dagger", "Override"⟩]).NamesRead := fun t ht =>
    Or.inl (TypeName.isRead_iff.2 (by revert t; decide))
  refine ⟨_, _, _, hplan, ?_, hread, by decide, by decide, ?_⟩
  · decide
  · rw [denoted_of_not_needsLine (t := ⟨"java.lang", "Override"⟩) hread (by decide) (by decide)]
    decide

end SourceUnit

end PlatformWiring
