import PlatformWiring.Proofs.Output.Path
import PlatformWiring.Proofs.TypeName
import PlatformWiring.Source.Unit

/-!
# Where source units lie

The file of a unit whose name was read lies in at least one directory. The names of the
directories hold no full stop, while the name of the file does, so that no file can stand
where another unit needs a directory. The only path that is not made of names is one with a
leading slash.
-/

namespace PlatformWiring

/-- Names that lead to the file of a source unit: directories, then the file. -/
structure SourceNames (dirs : List String) (file : String) : Prop where
  /-- there is a directory -/
  dirs_ne_nil : dirs ≠ []
  /-- the directories hold no full stop -/
  stop_not_mem : ∀ d ∈ dirs, '.' ∉ d.toList
  /-- the file holds one -/
  stop_mem : '.' ∈ file.toList

namespace Path

/-- A piece without a full stop is no `.` and no `..`, so it is a name, or it stands for nothing if
it is empty. -/
theorem part?_of_stop_not_mem {piece : List Char} (h : '.' ∉ piece) :
    part? piece = if piece = [] then none else some (.name (String.ofList piece)) := by
  by_cases he : piece = []
  · simp [part?, he]
  · have h₁ : piece ≠ ['.'] := by
      rintro rfl
      simp at h
    have h₂ : piece ≠ ['.', '.'] := by
      rintro rfl
      simp at h
    simp [part?, he, h₁, h₂]

/-- Pieces without full stops are names or stand for nothing. -/
theorem filterMap_part?_of_stop_not_mem {ps : List (List Char)} (h : ∀ p ∈ ps, '.' ∉ p) :
    ps.filterMap part? = ((ps.filter (· ≠ [])).map String.ofList).map .name := by
  induction ps with
  | nil => rfl
  | cons p ps ih =>
    have ih := ih fun q hq => h q (List.mem_cons_of_mem _ hq)
    rw [List.filterMap_cons, part?_of_stop_not_mem (h p (by simp)), ih]
    by_cases hp : p = [] <;> simp [hp]

end Path

namespace SourceUnit

/-- The suffix of a source file. -/
def suffix : List Char := ['.', 'j', 'a', 'v', 'a']

variable {u : SourceUnit}

/-- The directory of a unit in characters: the package with slashes for full stops. -/
def directoryText (u : SourceUnit) : List Char :=
  u.name.package.toList.map fun c => if c = '.' then '/' else c

/-- Every full stop of the package has become a slash. -/
theorem stop_not_mem_directoryText (u : SourceUnit) : '.' ∉ u.directoryText := by
  intro h
  obtain ⟨c, -, hc⟩ := List.mem_map.1 h
  split at hc
  · cases hc
  · rename_i hne
    exact hne hc

/-- The path in characters: the directory, a slash, the simple name and the suffix. -/
theorem path_text (h : u.name.package ≠ "") :
    u.path.text.toList = u.directoryText ++ '/' :: (u.name.simple.toList ++ suffix) := by
  have hne : u.directoryText ≠ [] := by
    simpa [directoryText, String.toList_eq_nil_iff] using h
  have hempty : (String.ofList u.directoryText).isEmpty = false := by
    rw [← Bool.not_eq_true, String.isEmpty_iff, String.ofList_eq_empty_iff]
    exact hne
  have hpath : u.path = ⟨String.ofList u.directoryText ++ "/" ++ u.name.simple ++ ".java"⟩ := by
    rw [path]
    exact if_neg (by rw [Bool.not_eq_true]; exact hempty)
  rw [hpath]
  simp [suffix]

/-- The pieces of the path: those of the directory, and those of the simple name, the last of
which carries the suffix. -/
theorem exists_slices (h : u.name.package ≠ "") (hstop : '.' ∉ u.name.simple.toList) :
    ∃ inits last, u.path.slices = Text.pieces '/' u.directoryText ++ (inits ++ [last]) ∧
      (∀ piece ∈ inits, '.' ∉ piece) ∧ suffix <:+ last ∧
      Path.part? last = some (.name (String.ofList last)) := by
  rcases List.eq_nil_or_concat (Text.pieces '/' u.name.simple.toList) with hp | ⟨inits, l, hp⟩
  · exact absurd hp (Text.pieces_ne_nil _ _)
  · rw [List.concat_eq_append] at hp
    refine ⟨inits, l ++ suffix, ?_, fun piece hpiece hc => ?_, List.suffix_append l suffix,
      Path.part?_eq_name_iff.2 ⟨by simp [suffix], fun e => ?_, fun e => ?_, rfl⟩⟩
    · rw [Path.slices, path_text h, Text.pieces_append_sep,
        Text.pieces_append_of_not_mem (by simp [suffix]) hp]
    · have hmem : piece ∈ Text.pieces '/' u.name.simple.toList := hp ▸ List.mem_append_left _ hpiece
      exact hstop (Text.mem_of_mem_pieces hmem '.' hc).1
    · simpa [suffix] using congrArg List.getLast? e
    · simpa [suffix] using congrArg List.getLast? e

/-- The path does not end in a slash, because it ends in the suffix. -/
theorem endsInSlash_path (h : u.name.IsRead) : u.path.endsInSlash = false := by
  rw [Path.endsInSlash, path_text h.parts.1, ← List.cons_append, ← List.append_assoc,
    List.getLast?_append]
  simp [suffix]

/-- The path leads through directories without full stops to a file with the suffix. A slash may
stand before them, and else there is a directory. -/
theorem exists_path_parts (h : u.name.IsRead) :
    ∃ (lead : List Path.Part) (dirs : List String) (file : String),
      u.path.parts = lead ++ (dirs ++ [file]).map .name ∧
      (lead = [.root] ∨ lead = [] ∧ dirs ≠ []) ∧ (∀ d ∈ dirs, '.' ∉ d.toList) ∧
      suffix <:+ file.toList := by
  obtain ⟨hpackage, -, hstop⟩ := h.parts
  obtain ⟨inits, last, hs, hinits, hsuffix, hlast⟩ := u.exists_slices hpackage hstop
  obtain ⟨first, others, hfirst⟩ := List.exists_cons_of_ne_nil
    (Text.pieces_ne_nil '/' u.directoryText)
  have hpieces : ∀ piece ∈ first :: others ++ inits, '.' ∉ piece := by
    intro piece hp hc
    rcases List.mem_append.1 hp with hp | hp
    · exact stop_not_mem_directoryText u (Text.mem_of_mem_pieces (hfirst ▸ hp) '.' hc).1
    · exact hinits piece hp hc
  have hs' : u.path.slices = (first :: others ++ inits) ++ [last] := by
    rw [hs, hfirst, List.append_assoc]
  have hparts : u.path.parts = Path.lead first (others ++ inits ++ [last]) ++
      (((first :: others ++ inits).filter (· ≠ [])).map String.ofList ++
        [String.ofList last]).map .name := by
    rw [Path.parts, hs', List.cons_append, List.cons_append]
    simp only
    rw [← List.cons_append, ← List.cons_append, List.filterMap_append,
      Path.filterMap_part?_of_stop_not_mem hpieces, List.map_append]
    simp [hlast]
  refine ⟨_, _, _, hparts, ?_, fun d hd => ?_, by rwa [String.toList_ofList]⟩
  · -- only an empty first piece stands for a part of its own, and else it is a directory
    by_cases hne : first = []
    · exact Or.inl (by simp [Path.lead, hne])
    · have hstopfirst : first ≠ ['.'] := by
        rintro rfl
        exact hpieces ['.'] (by simp) (by simp)
      exact Or.inr ⟨by simp [Path.lead, hne, hstopfirst], by simp [hne]⟩
  · obtain ⟨piece, hp, rfl⟩ := List.mem_map.1 hd
    rw [String.toList_ofList]
    exact hpieces piece (List.mem_filter.1 hp).1

/-- The path begins with a slash, or it is made of names: directories without a full stop, and a
file with one. -/
theorem path_parts (h : u.name.IsRead) :
    (∃ rest, u.path.parts = .root :: rest) ∨
      ∃ dirs file, SourceNames dirs file ∧ u.path.parts = (dirs ++ [file]).map .name := by
  obtain ⟨lead, dirs, file, hparts, rfl | ⟨rfl, hdirs⟩, hstop, hsuffix⟩ := exists_path_parts h
  · exact Or.inl ⟨_, hparts⟩
  · exact Or.inr ⟨dirs, file, ⟨hdirs, hstop, hsuffix.subset (by simp [suffix])⟩, hparts⟩

end SourceUnit

namespace SourceUnit

variable {u v : SourceUnit}

/-- The only full stop in the path of a unit is that of the suffix. -/
theorem exists_path_text (h : u.name.IsRead) :
    ∃ before, '.' ∉ before ∧ u.path.text.toList = before ++ suffix := by
  obtain ⟨hpackage, -, hstop⟩ := h.parts
  refine ⟨u.directoryText ++ '/' :: u.name.simple.toList, ?_, ?_⟩
  · simp [stop_not_mem_directoryText u, hstop]
  · rw [path_text hpackage, List.append_assoc, List.cons_append]

/-- The path of a unit ends in a name with the suffix. -/
theorem exists_getLast?_path_parts (h : u.name.IsRead) :
    ∃ n : String, u.path.parts.getLast? = some (.name n) ∧ suffix <:+ n.toList := by
  obtain ⟨lead, dirs, file, hparts, -, -, hsuffix⟩ := exists_path_parts h
  exact ⟨file, by simp [hparts], hsuffix⟩

/-- A path that breaks off is the path of no unit. -/
theorem text_eq_of_prefix {q : Path} (h : u.name.IsRead) (h' : v.name.IsRead)
    (hq : q.text.toList <+: u.path.text.toList) (hparts : q.parts = v.path.parts) :
    q = u.path := by
  obtain ⟨before, hbefore, htext⟩ := exists_path_text h
  obtain ⟨n, hn, hsuffix⟩ := exists_getLast?_path_parts h'
  rw [← hparts] at hn
  -- the suffix is somewhere in the path, and there is only one full stop at which it can begin
  obtain ⟨x, y, hxy⟩ := hsuffix.isInfix.trans
    (Path.infix_text_of_mem_parts (List.mem_of_getLast? hn))
  obtain ⟨z, hz⟩ := hq
  rw [htext, ← hxy, List.append_assoc, List.append_assoc] at hz
  have hrest : y ++ z = [] := by
    rcases List.append_eq_append_iff.1 hz with ⟨more, hmore, he⟩ | ⟨more, hmore, he⟩
    · cases more with
      | nil => simpa [suffix] using he
      | cons c more =>
        obtain ⟨rfl, -⟩ := List.cons.inj he
        exact absurd (hmore ▸ by simp) hbefore
    · have hlength := congrArg List.length he
      simp only [List.length_append] at hlength
      exact List.length_eq_zero_iff.1 (by rw [List.length_append]; omega)
  obtain ⟨rfl, rfl⟩ := List.append_eq_nil_iff.1 hrest
  rw [List.append_nil, List.append_nil] at hz
  have hsame : q.text = u.path.text := by
    rw [← String.toList_inj, ← hxy, htext, List.append_nil, hz]
  exact congrArg Path.mk hsame

end SourceUnit

/-! ## Plain names

A package may hold slashes or repeated full stops, and then different packages can give one
directory: the packages `a.b` and `a..b` lead to the same place, and so does `a/b`. With plain names
nothing is lost on the way, and the package can be read off the directories. -/

/-- A plain name has no slash, no empty segment in its package and no full stop in its simple
name. -/
structure TypeName.Plain (t : TypeName) : Prop where
  /-- the package has no slash -/
  package : '/' ∉ t.package.toList
  /-- and no empty segment -/
  segments : [] ∉ Text.pieces '.' t.package.toList
  /-- the simple name has no slash -/
  simple : '/' ∉ t.simple.toList
  /-- and no full stop -/
  stop : '.' ∉ t.simple.toList

/-- Whether a name is plain is decided along its fields. -/
instance (t : TypeName) : Decidable t.Plain :=
  decidable_of_iff ('/' ∉ t.package.toList ∧ [] ∉ Text.pieces '.' t.package.toList ∧
      '/' ∉ t.simple.toList ∧ '.' ∉ t.simple.toList)
    ⟨fun ⟨package, segments, simple, stop⟩ => ⟨package, segments, simple, stop⟩,
      fun h => ⟨h.package, h.segments, h.simple, h.stop⟩⟩

namespace SourceUnit

variable {u u' : SourceUnit}

/-- The directories of a plain name are the segments of its package. -/
theorem path_parts_of_plain (h : u.name.Plain) :
    u.path.parts = ((Text.pieces '.' u.name.package.toList).map String.ofList ++
      [String.ofList (u.name.simple.toList ++ suffix)]).map .name := by
  have hpackage : u.name.package ≠ "" := fun he => h.segments (by simp [he, Text.pieces])
  have hslash : '/' ∉ u.name.simple.toList ++ suffix := by simp [suffix, h.simple]
  have hslices : u.path.slices =
      Text.pieces '.' u.name.package.toList ++ [u.name.simple.toList ++ suffix] := by
    rw [Path.slices, path_text hpackage, Text.pieces_append_sep, Text.pieces_of_not_mem hslash,
      directoryText, Text.pieces_replace h.package]
  have hdirs : ∀ piece ∈ Text.pieces '.' u.name.package.toList, piece ≠ [] ∧ '.' ∉ piece :=
    fun piece hp => ⟨fun he => h.segments (he ▸ hp),
      fun hc => (Text.mem_of_mem_pieces hp '.' hc).2 rfl⟩
  have hfile : Path.part? (u.name.simple.toList ++ suffix) =
      some (.name (String.ofList (u.name.simple.toList ++ suffix))) := by
    refine Path.part?_eq_name_iff.2 ⟨by simp [suffix], fun he => ?_, fun he => ?_, rfl⟩
    · simpa [suffix] using congrArg List.getLast? he
    · simpa [suffix] using congrArg List.getLast? he
  generalize Text.pieces '.' u.name.package.toList = dirs at hslices hdirs
  have hparts : (dirs ++ [u.name.simple.toList ++ suffix]).filterMap Path.part? =
      (dirs.map String.ofList ++ [String.ofList (u.name.simple.toList ++ suffix)]).map .name := by
    rw [List.filterMap_append,
      Path.filterMap_part?_of_stop_not_mem fun piece hp => (hdirs piece hp).2,
      List.filter_eq_self.2 fun piece hp => decide_eq_true (hdirs piece hp).1, List.map_append]
    simp [hfile]
  -- the first piece is a name, with or without a directory before the file
  have hlead : ∃ first others n, dirs ++ [u.name.simple.toList ++ suffix] = first :: others ∧
      Path.part? first = some (.name n) := by
    cases dirs with
    | nil => exact ⟨_, _, _, rfl, hfile⟩
    | cons first dirs =>
      obtain ⟨hne, hstop⟩ := hdirs first List.mem_cons_self
      exact ⟨first, _, String.ofList first, rfl, by
        rw [Path.part?_of_stop_not_mem hstop, if_neg hne]⟩
  obtain ⟨first, others, n, hfirst, hn⟩ := hlead
  rw [← hparts, hfirst, List.filterMap_cons, hn]
  exact Path.parts_of_slices (hslices.trans hfirst) hn

/-- Units with plain names in one place have the same name. -/
theorem name_eq_of_path_parts (h : u.name.Plain) (h' : u'.name.Plain)
    (hparts : u.path.parts = u'.path.parts) : u.name = u'.name := by
  rw [path_parts_of_plain h, path_parts_of_plain h'] at hparts
  have hnames := List.map_injective_iff.2 (fun _ _ he => Path.Part.name.inj he) hparts
  obtain ⟨hdirs, hfile⟩ := List.append_inj' hnames rfl
  have hpieces := List.map_injective_iff.2 (fun _ _ he => String.ofList_injective he) hdirs
  have hpackage : u.name.package.toList = u'.name.package.toList := by
    rw [← Text.unpieces_pieces '.' u.name.package.toList, hpieces, Text.unpieces_pieces]
  have hsimple : u.name.simple.toList = u'.name.simple.toList :=
    List.append_cancel_right (String.ofList_injective (List.cons.inj hfile).1)
  exact congrArg₂ TypeName.mk (String.toList_inj.1 hpackage) (String.toList_inj.1 hsimple)

end SourceUnit

end PlatformWiring
