import PlatformWiring.Output.Record
import PlatformWiring.Proofs.Source.Path
import PlatformWiring.Proofs.Source.Scope

/-!
# Source units keep apart

Names of types may hold any character, slashes and repeated full stops among them. The path of a
unit leads nowhere else for that: it goes through directories without full stops to a file with the
suffix of sources. So it never leaves the root by a `..`, it is not the path of the record, and no
unit lies where another one needs a directory. Units whose names are free of slashes and empty
segments lie in one place only if they have one name.
-/

namespace PlatformWiring

/-- Where a source lies: in a file with the suffix, behind directories without full stops. -/
structure SourcePlace (parts : List Path.Part) : Prop where
  /-- no part is a `.` -/
  here_not_mem : Path.Part.here ∉ parts
  /-- or a `..` -/
  up_not_mem : Path.Part.up ∉ parts
  /-- only the last part holds a full stop -/
  stop_not_mem : ∀ n : String, Path.Part.name n ∈ parts.dropLast → '.' ∉ n.toList
  /-- the last part is a name with the suffix -/
  exists_file : ∃ n : String, parts.getLast? = some (.name n) ∧ SourceUnit.suffix <:+ n.toList

namespace SourcePlace

variable {ps qs : List Path.Part}

/-- No source lies where another one needs a directory. -/
theorem eq_of_isPrefix (h : SourcePlace ps) (h' : SourcePlace qs) (hp : ps <+: qs) : ps = qs := by
  obtain ⟨n, hn, hsuffix⟩ := h.exists_file
  obtain ⟨m, hm, -⟩ := h'.exists_file
  obtain ⟨dirs, rfl⟩ := List.getLast?_eq_some_iff.1 hm
  rcases List.prefix_concat_iff.1 hp with he | hdirs
  · exact he
  · -- the file of the first source would be a directory of the second one
    have hmem : Path.Part.name n ∈ dirs := hdirs.subset (List.mem_of_getLast? hn)
    refine absurd (hsuffix.subset (by simp [SourceUnit.suffix])) (h'.stop_not_mem n ?_)
    rwa [List.dropLast_concat]

/-- A source does not lie where the record does, as the record has another suffix. -/
theorem ne_record (h : SourcePlace ps) : ps ≠ Record.fileName.parts := by
  rintro rfl
  obtain ⟨n, hn, hsuffix⟩ := h.exists_file
  have hname : Record.fileName.parts.getLast? = some (.name ".stepwire-sources") := by decide
  obtain rfl : ".stepwire-sources" = n := by
    rw [hname] at hn
    exact Path.Part.name.inj (Option.some.inj hn)
  revert hsuffix
  decide

end SourcePlace

namespace SourceUnit

variable {u v : SourceUnit}

/-- The path of a unit is such a place, whatever characters its name holds, if the name was read. -/
theorem sourcePlace_path (h : u.name.IsRead) : SourcePlace u.path.parts := by
  obtain ⟨lead, dirs, file, hparts, hlead, hstop, hsuffix⟩ := exists_path_parts h
  have hroot : ∀ part ∈ lead, part = .root := by
    rcases hlead with rfl | ⟨rfl, -⟩ <;> simp
  have hcases : ∀ part ∈ u.path.parts, part = .root ∨ ∃ n, part = .name n := by
    intro part hpart
    rw [hparts, List.mem_append, List.mem_map] at hpart
    rcases hpart with hpart | ⟨n, -, rfl⟩
    · exact Or.inl (hroot part hpart)
    · exact Or.inr ⟨n, rfl⟩
  refine ⟨fun hmem => ?_, fun hmem => ?_, fun n hn => ?_, ⟨file, by simp [hparts], hsuffix⟩⟩
  · simpa using hcases _ hmem
  · simpa using hcases _ hmem
  · rw [hparts, List.map_append, ← List.append_assoc, List.map_singleton, List.dropLast_concat,
      List.mem_append] at hn
    rcases hn with hn | hn
    · cases hroot _ hn
    · obtain ⟨d, hd, he⟩ := List.mem_map.1 hn
      exact Path.Part.name.inj he ▸ hstop d hd

/-- **The paths of source units are safe**: they lead through directories without full stops to a
file with the suffix, which is not the record; none of them begins another one; and those of names
without slashes and without empty segments are apart. -/
theorem paths_keep_apart (u v : SourceUnit)
    (h : ∀ t ∈ [u.name, v.name], t.IsRead ∨ ∃ base : TypeName, base.IsRead ∧
      ∃ p, t = base.onPlatform p) :
    SourcePlace u.path.parts ∧ u.path.parts ≠ Record.fileName.parts ∧
      (u.path.parts <+: v.path.parts → u.path.parts = v.path.parts) ∧
      ((∀ t ∈ [u.name, v.name], '/' ∉ t.package.toList ∧ '/' ∉ t.simple.toList ∧
          [] ∉ Text.pieces '.' t.package.toList) →
        u.path.parts = v.path.parts → u.name = v.name) := by
  have hread : ∀ t ∈ [u.name, v.name], t.IsRead := fun t ht =>
    (h t ht).elim id fun ⟨_, hbase, p, he⟩ => he ▸ hbase.onPlatform p
  have hu := sourcePlace_path (hread u.name (by simp))
  have hv := sourcePlace_path (hread v.name (by simp))
  refine ⟨hu, hu.ne_record, hu.eq_of_isPrefix hv, fun hclean hparts => ?_⟩
  have hplain : ∀ t ∈ [u.name, v.name], t.Plain := fun t ht =>
    have ⟨hpackage, hsimple, hsegments⟩ := hclean t ht
    ⟨hpackage, hsegments, hsimple, (hread t ht).parts.2.2⟩
  exact name_eq_of_path_parts (hplain u.name (by simp)) (hplain v.name (by simp)) hparts

/-- A type and its implementation on a platform lie in different places. -/
theorem card_paths_keep_apart :
    SourcePlace (blank .component ⟨"shop", "Card"⟩ .interface).path.parts ∧
      (blank .component ⟨"shop", "Card"⟩ .interface).path.parts ≠
        (blank (.stub .ios) ⟨"shop", "IOSCard"⟩ .class).path.parts := by
  have hread : TypeName.IsRead ⟨"shop", "Card"⟩ := by decide
  have happly := paths_keep_apart (blank .component ⟨"shop", "Card"⟩ .interface)
    (blank (.stub .ios) ⟨"shop", "IOSCard"⟩ .class) (by
      intro t ht
      rcases List.mem_pair.1 ht with rfl | rfl
      · exact Or.inl hread
      · exact Or.inr ⟨⟨"shop", "Card"⟩, hread, .ios, rfl⟩)
  refine ⟨happly.1, fun hparts => ?_⟩
  have hname := happly.2.2.2 (by decide) hparts
  revert hname
  decide

end SourceUnit

end PlatformWiring
