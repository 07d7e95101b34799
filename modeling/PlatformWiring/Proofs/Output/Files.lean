import PlatformWiring.Output.Files
import PlatformWiring.Proofs.Output.Path
import PlatformWiring.Proofs.Output.Walk

/-!
# File operations in terms of locations

Below an output root a path of names is a location. What an operation on such a path does is
said here by what stands at each location before and after: a write that succeeds changes one
file, a removal takes one file away, and making directories adds directories and nothing
else. The last section says when a write succeeds.
-/

namespace PlatformWiring

namespace Path

/-! ## Paths that can be looked up

A path may be made of names that lead somewhere and still be refused for its text: if it is too
long, holds a NUL character, or ends in a full stop. `Leads` collects all that a path has to fulfil,
and the parent of such a path fulfils it too, since its text is a beginning. -/

/-- A beginning of a text is no longer. -/
theorem utf8ByteSize_le_of_isPrefix {s s' : String} (h : s.toList <+: s'.toList) :
    s.utf8ByteSize ≤ s'.utf8ByteSize := by
  obtain ⟨rest, hrest⟩ := h
  have : s' = s ++ String.ofList rest := by
    rw [← String.toList_inj, String.toList_append, String.toList_ofList, hrest]
  rw [this, String.utf8ByteSize_append]
  exact Nat.le_add_right _ _

/-- The path is made of the names and can be looked up below an output root. -/
structure Leads (p : Path) (names : List String) : Prop where
  /-- its parts are the names -/
  parts_eq : p.parts = names.map .name
  /-- it ends in the last of them -/
  endsInName : names ≠ [] → p.endsInName = true
  /-- it holds no NUL character -/
  nul_not_mem : '\x00' ∉ p.text.toList
  /-- it is not too long -/
  length_le : p.text.utf8ByteSize ≤ Tree.maxPathLength
  /-- no name is too long -/
  short : ∀ name ∈ names, name.utf8ByteSize ≤ maxNameLength

namespace Leads

variable {p : Path} {names dirs : List String} {s : String}

/-- The directory of a path that can be looked up can be looked up. -/
theorem exists_parent? (h : p.Leads (dirs ++ [s])) :
    ∃ q, p.parent? = some q ∧ q.Leads dirs := by
  obtain ⟨q, hq, hparts, hends, hbegins⟩ := exists_parent?_of_names h.parts_eq
  exact ⟨q, hq, hparts, hends, fun hc => h.nul_not_mem (hbegins.subset hc),
    Nat.le_trans (utf8ByteSize_le_of_isPrefix hbegins) h.length_le,
    fun name hname => h.short name (List.mem_append_left _ hname)⟩

/-- The names of such a path hold no NUL character. -/
theorem nul_not_mem_name (h : p.Leads names) {name : String} (hname : name ∈ names) :
    '\x00' ∉ name.toList := fun hc =>
  h.nul_not_mem ((infix_text_of_mem_parts (h.parts_eq ▸ List.mem_map_of_mem hname)).subset hc)

/-- The text of such a path passes the checks. -/
theorem checkPath {start : Start} (hc : start.confined = true) (h : p.Leads names) :
    Tree.checkPath start p.text = .ok () := by
  simp [Tree.checkPath, h.nul_not_mem, Nat.not_lt.2 h.length_le, hc]

/-- The part that is looked up when an entry is made or removed can be looked up too. -/
theorem checkPath_lookedUp {start : Start} (hc : start.confined = true)
    (h : p.Leads (dirs ++ [s])) : Tree.checkPath start (Tree.lookedUp start p) = .ok () := by
  obtain ⟨q, hq, hlead⟩ := h.exists_parent?
  rw [Tree.lookedUp, hc, h.endsInName (by simp), hq]
  exact hlead.checkPath hc

end Leads

end Path

namespace Tree

variable {t t' : Tree} {start : Start} {base : Location} {p : Path} {dirs names : List String}
  {s looked : String}

/-- Below an output root the text is checked for NUL characters and for its length. -/
theorem checkPath_eq_ok_iff (hc : start.confined = true) {text : String} :
    checkPath start text = .ok () ↔
      '\x00' ∉ text.toList ∧ text.utf8ByteSize ≤ maxPathLength := by
  unfold checkPath
  by_cases h : '\x00' ∈ text.toList
  · simp [h]
  · by_cases hl : maxPathLength < text.utf8ByteSize
    · simp [h, hl]
    · simp [h, hl, hc, Nat.le_of_not_lt hl]

/-! ## Where a path of names leads

The target of a path of names is the last name in the directory that the other names lead to. From
here on operations are described at the location, and the target is not mentioned any more. -/

/-- A path of names leads to the location of the names, and what its directory holds under the last
name is what stands there. -/
theorem child_of_target (hb : start.base = some base) (hp : p.parts = (dirs ++ [s]).map .name)
    {parent : Place} {inside : Tree} {name : String}
    (h : t.target start p looked = .ok (.child parent inside name)) :
    name = s ∧ parent.locate s = base ++ dirs ++ [s] ∧ t.Reachable (base ++ dirs) ∧
      t.standing? (base ++ dirs ++ [s]) = (inside.find? s).map (·.standing) ∧
      p.endsInName = true ∧ checkPath start looked = .ok () ∧ s.utf8ByteSize ≤ maxNameLength := by
  obtain ⟨hcheck, hends, hlast, hwalk, -, hinside, hlen⟩ := target_eq_child_iff.1 h
  rw [hp, List.map_append, List.map_cons, List.map_nil, List.getLast?_concat] at hlast
  obtain rfl : s = name := by simpa using hlast
  rw [hp, List.map_append, List.map_cons, List.map_nil, List.dropLast_concat] at hwalk
  have hin := in_of_walk hb hwalk
  have hloc := location_of_walk_names hb hwalk
  refine ⟨rfl, by rw [Place.locate, hloc], hloc ▸ hin.reachable, ?_, hends, hcheck, hlen⟩
  rw [← hloc]
  exact hin.standing?_name hinside s

/-- A path that can be looked up leads to its last name if its directory is there. -/
theorem exists_target (hb : start.base = some base) (hlead : p.Leads (dirs ++ [s]))
    (hcheck : checkPath start looked = .ok ()) (hr : t.Reachable (base ++ dirs)) :
    ∃ parent inside, t.target start p looked = .ok (.child parent inside s) := by
  obtain ⟨parent, hwalk⟩ := (exists_walk_names_iff hb).2 hr
  obtain ⟨inside, hinside, -⟩ := (in_of_walk hb hwalk).exists_inside
  have hs : s ∈ dirs ++ [s] := by simp
  refine ⟨parent, inside, target_eq_child_iff.2 ⟨hcheck, hlead.endsInName (by simp), ?_, ?_,
    hlead.nul_not_mem_name hs, hinside, hlead.short s hs⟩⟩
  · rw [hlead.parts_eq, List.map_append, List.map_cons, List.map_nil, List.getLast?_concat]
  · rw [hlead.parts_eq, List.map_append, List.map_cons, List.map_nil, List.dropLast_concat]
    exact hwalk

/-- The path of names can be looked up if it leads anywhere. -/
theorem leads_of_target (hb : start.base = some base) (hc : start.confined = true)
    (hp : p.parts = (dirs ++ [s]).map .name) {parent : Place} {inside : Tree} {name : String}
    (h : t.target start p p.text = .ok (.child parent inside name)) : p.Leads (dirs ++ [s]) := by
  obtain ⟨-, -, hr, -, hends, hcheck, hlen⟩ := child_of_target hb hp h
  obtain ⟨hnul, hlength⟩ := (checkPath_eq_ok_iff hc).1 hcheck
  refine ⟨hp, fun _ => hends, hnul, hlength, fun name hname => ?_⟩
  rcases List.mem_append.1 hname with hname | hname
  · exact hr.2 name (List.mem_append_right _ hname)
  · rw [List.mem_singleton.1 hname]
    exact hlen

/-! ## Finding and reading

What an operation finds is what stands at the location, in both directions: what is found stands
there, and what stands there is found if the path can be looked up. -/

/-- A file that is found stands at the location of its path. -/
theorem standing?_of_find_file (hb : start.base = some base) (hc : start.confined = true)
    (hp : p.parts = (dirs ++ [s]).map .name) {c : ByteArray}
    (h : t.find start p = .ok (.file c)) :
    p.Leads (dirs ++ [s]) ∧ t.standing? (base ++ dirs ++ [s]) = some (.file c) := by
  rw [find, bind_eq_ok_iff] at h
  obtain ⟨target, htarget, hfind⟩ := h
  cases target with
  | directory place => cases hfind
  | child parent inside name =>
    obtain ⟨rfl, -, -, hstanding, -⟩ := child_of_target hb hp htarget
    refine ⟨leads_of_target hb hc hp htarget, ?_⟩
    rw [hstanding]
    simp only at hfind
    rcases hf : inside.find? name with _ | ⟨c'⟩ | ⟨d⟩ <;> rw [hf] at hfind
    · cases hfind
    · simp only at hfind
      split at hfind
      · cases hfind
      · cases hfind
        rfl
    · cases hfind

theorem isFile_eq_true (hb : start.base = some base) (hc : start.confined = true)
    (hp : p.parts = (dirs ++ [s]).map .name) (h : t.isFile start p = true) :
    p.Leads (dirs ++ [s]) ∧ ∃ c, t.standing? (base ++ dirs ++ [s]) = some (.file c) := by
  rw [isFile] at h
  split at h
  · rename_i content hfind
    obtain ⟨hlead, hc⟩ := standing?_of_find_file hb hc hp hfind
    exact ⟨hlead, content, hc⟩
  · cases h

/-- A directory is found where it stands. -/
theorem isDirectory_of_standing? (hb : start.base = some base) (hc : start.confined = true)
    (hlead : p.Leads (dirs ++ [s])) (hr : t.Reachable (base ++ dirs))
    (h : t.standing? (base ++ dirs ++ [s]) = some .directory) : t.isDirectory start p = true := by
  obtain ⟨parent, inside, htarget⟩ := exists_target hb hlead (hlead.checkPath hc) hr
  obtain ⟨-, -, -, hstanding, -⟩ := child_of_target hb hlead.parts_eq htarget
  rw [h] at hstanding
  have hfind : ∃ d, t.find start p = .ok (.directory d) := by
    rw [find, htarget]
    rcases hf : inside.find? s with _ | ⟨c⟩ | ⟨d⟩ <;> rw [hf] at hstanding
    · cases hstanding
    · cases hstanding
    · exact ⟨d, by simp only [bind, Except.bind, hf]; rfl⟩
  obtain ⟨d, hd⟩ := hfind
  rw [isDirectory, hd]

/-- A file is found where it stands. -/
theorem find_of_standing? (hb : start.base = some base) (hc : start.confined = true)
    (hlead : p.Leads (dirs ++ [s])) (hslash : p.endsInSlash = false) {c : ByteArray}
    (h : t.standing? (base ++ dirs ++ [s]) = some (.file c))
    (hr : t.Reachable (base ++ dirs)) : t.find start p = .ok (.file c) := by
  obtain ⟨parent, inside, htarget⟩ := exists_target hb hlead (hlead.checkPath hc) hr
  obtain ⟨-, -, -, hstanding, -⟩ := child_of_target hb hlead.parts_eq htarget
  rw [h] at hstanding
  rw [find, htarget]
  rcases hf : inside.find? s with _ | ⟨c'⟩ | ⟨d⟩ <;> rw [hf] at hstanding
  · cases hstanding
  · obtain rfl : c = c' := by simpa [Entry.standing] using hstanding
    simp only [bind, Except.bind, hf, hslash, Bool.false_eq_true, if_false]
    rfl
  · cases hstanding

/-- A file that stands at a location is known to be one. -/
theorem isFile_of_standing? (hb : start.base = some base) (hc : start.confined = true)
    (hlead : p.Leads (dirs ++ [s])) (hslash : p.endsInSlash = false) {c : ByteArray}
    (h : t.standing? (base ++ dirs ++ [s]) = some (.file c))
    (hr : t.Reachable (base ++ dirs)) : t.isFile start p = true := by
  rw [isFile, find_of_standing? hb hc hlead hslash h hr]

/-- Reading a file of text gives the text. -/
theorem readText_of_standing? (hb : start.base = some base) (hc : start.confined = true)
    (hlead : p.Leads (dirs ++ [s])) (hslash : p.endsInSlash = false) {text : String}
    (h : t.standing? (base ++ dirs ++ [s]) = some (.file text.toUTF8))
    (hr : t.Reachable (base ++ dirs)) : t.readText start p = .ok text := by
  have hbytes : t.readBytes start p = .ok text.toUTF8 := by
    rw [readBytes, find_of_standing? hb hc hlead hslash h hr]
    rfl
  have hutf8 : String.fromUTF8? text.toUTF8 = some text := dif_pos text.isValidUTF8
  rw [readText, hbytes]
  simp only [bind, Except.bind, hutf8]
  rfl

/-- What was read is what was found. -/
theorem find_of_readText {text : String} (h : t.readText start p = .ok text) :
    t.find start p = .ok (.file text.toUTF8) := by
  rw [readText, bind_eq_ok_iff] at h
  obtain ⟨bytes, hbytes, htext⟩ := h
  rw [readBytes, bind_eq_ok_iff] at hbytes
  obtain ⟨e, hfind, hbytes⟩ := hbytes
  cases e with
  | directory d => cases hbytes
  | file c =>
    obtain rfl : c = bytes := Except.ok.inj hbytes
    rw [hfind]
    split at htext
    · rename_i s hs
      obtain rfl : s = text := Except.ok.inj htext
      rw [String.fromUTF8?] at hs
      split at hs
      · rw [← Option.some.inj hs]
        rfl
      · cases hs
    · cases htext

theorem isFile_of_readText {text : String} (h : t.readText start p = .ok text) :
    t.isFile start p = true := by
  rw [isFile, find_of_readText h]

/-! ## Making directories

Directories are made from the outside in, each where nothing stands. All of that together is
`Grows`: no location changes but those where nothing stood, and these get a directory under one of
the names. So files and directories that were there are there still, also if making directories
failed halfway. -/

/-- Nothing changes but that directories appear where nothing stood, each under one of the
names. -/
def Grows (names : List String) (t t' : Tree) : Prop :=
  ∀ loc, t'.standing? loc = t.standing? loc ∨
    t.standing? loc = none ∧ t'.standing? loc = some .directory ∧
      ∃ above, ∃ name ∈ names, loc = above ++ [name]

theorem Grows.refl (names : List String) (t : Tree) : Grows names t t := fun _ => Or.inl rfl

theorem Grows.trans {names' : List String} {t'' : Tree} (hsub : names' ⊆ names)
    (h : Grows names' t t') (h' : Grows names t' t'') : Grows names t t'' := by
  intro loc
  rcases h' loc with h₂ | ⟨hnone, hdir, hloc⟩
  · rw [h₂]
    rcases h loc with h₁ | ⟨hnone, hdir, above, name, hname, hloc⟩
    · exact Or.inl h₁
    · exact Or.inr ⟨hnone, hdir, above, name, hsub hname, hloc⟩
  · rcases h loc with h₁ | ⟨-, hdir', -⟩
    · exact Or.inr ⟨h₁ ▸ hnone, hdir, hloc⟩
    · rw [hdir'] at hnone
      cases hnone

theorem Grows.file_iff (h : Grows names t t') {loc : Location} {c : ByteArray} :
    t'.standing? loc = some (.file c) ↔ t.standing? loc = some (.file c) := by
  rcases h loc with he | ⟨hnone, hdir, -⟩
  · rw [he]
  · rw [hnone, hdir]
    simp

theorem Grows.directory (h : Grows names t t') {loc : Location}
    (hd : t.standing? loc = some .directory) : t'.standing? loc = some .directory := by
  rcases h loc with he | ⟨-, hdir, -⟩
  · rw [he, hd]
  · exact hdir

theorem Grows.reachable (h : Grows names t t') {loc : Location} (hr : t.Reachable loc) :
    t'.Reachable loc :=
  ⟨h.directory hr.1, hr.2⟩

/-- Making a directory makes one where nothing stood, or changes nothing. -/
theorem makeDirectory_cases (hb : start.base = some base)
    (hp : p.parts = (dirs ++ [s]).map .name) :
    (∃ e, t.makeDirectory start p = (.error e, t)) ∨
      (∃ t', t.makeDirectory start p = (.ok (), t') ∧
        t.standing? (base ++ dirs ++ [s]) = none ∧ ∀ loc, t'.standing? loc =
          if loc = base ++ dirs ++ [s] then some .directory else t.standing? loc) := by
  rw [makeDirectory]
  split
  · exact Or.inl ⟨_, rfl⟩
  · exact Or.inl ⟨_, rfl⟩
  · rename_i parent inside name htarget
    obtain ⟨rfl, hloc, hr, hstanding, -⟩ := child_of_target hb hp htarget
    rcases hf : inside.find? name with _ | e
    · rw [hf] at hstanding
      exact Or.inr ⟨_, rfl, hstanding, fun loc => hloc ▸ standing?_put_directory hr.1 hstanding loc⟩
    · exact Or.inl ⟨_, rfl⟩

/-- Making one directory adds at most that one. -/
theorem makeDirectory_grows (hb : start.base = some base)
    (hp : p.parts = (dirs ++ [s]).map .name) :
    Grows (dirs ++ [s]) t (t.makeDirectory start p).2 := by
  rcases makeDirectory_cases (t := t) hb hp with ⟨e, he⟩ | ⟨t', he, hnone, hall⟩
  · rw [he]
    exact .refl _ _
  · rw [he]
    intro loc
    by_cases hloc : loc = base ++ dirs ++ [s]
    · right
      exact ⟨hloc ▸ hnone, by rw [hall, if_pos hloc], base ++ dirs, s, by simp, hloc⟩
    · left
      rw [hall, if_neg hloc]

/-- A directory that is there already is no error, and the tree is the same either way. -/
theorem ensureDirectory_snd (t : Tree) (start : Start) (p : Path) :
    (t.ensureDirectory start p).2 = (t.makeDirectory start p).2 := by
  rw [ensureDirectory]
  split
  · rename_i e t' h
    split <;> rw [h]
  · rfl

/-- Making the first directories of a path adds directories under its names. By induction on how
many of them are asked for. -/
theorem ensureDirectories_grows (hb : start.base = some base) {n : Nat}
    (hp : p.parts = names.map .name) (hn : n ≤ names.length) :
    Grows names t (t.ensureDirectories start n p).2 := by
  induction n generalizing p names with
  | zero => exact .refl _ _
  | succ n ih =>
    have hne : names ≠ [] := by
      rintro rfl
      simp at hn
    obtain ⟨dirs, s, rfl⟩ := (List.eq_nil_or_concat' names).resolve_left hne
    obtain ⟨q, hq, hparts, -, -⟩ := Path.exists_parent?_of_names hp
    have hensure : ∀ t : Tree, Grows (dirs ++ [s]) t (t.ensureDirectory start p).2 := fun t => by
      rw [ensureDirectory_snd]
      exact makeDirectory_grows hb hp
    rw [ensureDirectories, hq]
    simp only
    split
    · have hrec := (ih hparts (by simpa using hn)).trans (List.subset_append_left dirs [s])
        (.refl (dirs ++ [s]) _)
      split
      · rename_i t₁ h₁
        rw [h₁] at hrec
        exact hrec.trans (List.Subset.refl _) (hensure t₁)
      · exact hrec
    · exact hensure t

/-- Making directories along names adds directories and nothing else. -/
theorem makeDirectories_grows (hb : start.base = some base) (hp : p.parts = names.map .name) :
    Grows names t (t.makeDirectories start p).2 :=
  ensureDirectories_grows hb hp (Nat.le_of_eq (by rw [hp, List.length_map]))

/-! ## Directories that are there already

An output root is made before anything is written, and mostly it is there. Then the tree is left as
it is, whatever the path looks like: it need not be made of names. -/

/-- A text that passes the checks holds no NUL character. -/
theorem nul_not_mem_of_checkPath {text : String} (h : checkPath start text = .ok ()) :
    '\x00' ∉ text.toList := by
  intro hmem
  rw [checkPath, if_pos hmem] at h
  cases h

/-- A path that locates a directory leads to it, by its last name or otherwise. -/
theorem target_of_locateDirectory (hb : start.base = some base) {loc : Location}
    (h : t.locateDirectory start p = .ok loc) :
    (∃ place, t.target start p p.text = .ok (.directory place)) ∨
      ∃ parent inside s below, t.target start p p.text = .ok (.child parent inside s) ∧
        inside.find? s = some (.directory below) := by
  rw [locateDirectory, bind_eq_ok_iff] at h
  obtain ⟨⟨⟩, hcheck, h⟩ := h
  rw [bind_eq_ok_iff] at h
  obtain ⟨q, hwalk, -⟩ := h
  by_cases hname : ∃ s, p.endsInName = true ∧ p.parts.getLast? = some (.name s)
  · -- the last step of the walk enters the directory of the last name
    right
    obtain ⟨s, hends, hlast⟩ := hname
    have hparts : p.parts = p.parts.dropLast ++ [.name s] := by
      rw [List.dropLast_append_getLast? _ hlast]
    have hnul : '\x00' ∉ s.toList := fun hc =>
      nul_not_mem_of_checkPath hcheck
        ((Path.infix_text_of_mem_parts (List.mem_of_getLast? hlast)).subset hc)
    rw [hparts, walk_concat, bind_eq_ok_iff] at hwalk
    obtain ⟨parent, hparent, henter⟩ := hwalk
    obtain ⟨inside, hinside, -⟩ := (in_of_walk hb hparent).exists_inside
    simp only [step, Place.enter, hinside] at henter
    split at henter
    · cases henter
    · rename_i hlen
      rcases hf : inside.find? s with _ | ⟨c⟩ | ⟨below⟩ <;> rw [hf] at henter
      · cases henter
      · cases henter
      · exact ⟨parent, inside, s, below, target_eq_child_iff.2 ⟨hcheck, hends, hlast, hparent, hnul,
          hinside, Nat.le_of_not_lt hlen⟩, hf⟩
  · left
    refine ⟨q, ?_⟩
    rw [target, hcheck]
    simp only [bind, Except.bind]
    split
    · exact absurd ⟨_, by assumption, by assumption⟩ hname
    · rw [hwalk]
      rfl

/-- Making a directory that is there changes nothing. -/
theorem makeDirectories_of_locateDirectory (hb : start.base = some base)
    (hc : start.confined = false) {loc : Location} (h : t.locateDirectory start p = .ok loc) :
    t.makeDirectories start p = (.ok (), t) := by
  have hlooked : lookedUp start p = p.text := by simp [lookedUp, hc]
  have hensure : t.ensureDirectory start p = (.ok (), t) := by
    rcases target_of_locateDirectory hb h with ⟨place, ht⟩ | ⟨parent, inside, s, below, ht, hf⟩
    · simp [ensureDirectory, makeDirectory, isDirectory, find, hlooked, ht, bind, Except.bind,
        pure, Except.pure]
    · simp [ensureDirectory, makeDirectory, isDirectory, find, hlooked, ht, hf, bind, Except.bind,
        pure, Except.pure]
  rw [makeDirectories]
  cases p.parts.length with
  | zero => rfl
  | succ n =>
    rw [ensureDirectories]
    cases p.parent? with
    | none => rfl
    | some above => simp only [hensure]

/-! ## Writing and removing

A write makes the directories of its path and then changes one file, so a tree in between has to be
named. Removing takes one file away. What both do elsewhere is nothing, and that is said for each
location. -/

/-- A path with a leading slash cannot be written below an output root. -/
theorem saveText_root (hc : start.confined = true) {rest : List Path.Part}
    (hp : p.parts = .root :: rest) (text : String) : t.saveText start p text ≠ (.ok (), t') := by
  have hwalk : ∀ (t : Tree) (more : List Path.Part) q, t.walk start (.root :: more) ≠ .ok q := by
    intro t more q hq
    rw [walk, bind_eq_ok_iff] at hq
    obtain ⟨here, -, hq⟩ := hq
    rw [List.foldlM_cons, bind_eq_ok_iff] at hq
    obtain ⟨next, hnext, -⟩ := hq
    simp [step, hc] at hnext
  have htarget : ∀ (t : Tree) looked target, t.target start p looked ≠ .ok target := by
    intro t looked target h
    rw [Tree.target, bind_eq_ok_iff] at h
    obtain ⟨⟨⟩, -, h⟩ := h
    rw [hp] at h
    split at h
    · rename_i s _ hlast
      rw [bind_eq_ok_iff] at h
      obtain ⟨parent, hparent, -⟩ := h
      cases rest with
      | nil => simp at hlast
      | cons part rest => exact hwalk t _ _ hparent
    · rw [bind_eq_ok_iff] at h
      obtain ⟨place, hplace, -⟩ := h
      exact hwalk t _ _ hplace
  intro h
  rw [saveText, saveBytes] at h
  rcases hmake : t.makeDirectories start (p.parent?.getD p) with ⟨⟨e⟩ | ⟨⟨⟩⟩, t₁⟩
  · rw [hmake] at h
    cases h
  · rw [hmake] at h
    simp only [writeBytes] at h
    rcases ht : t₁.target start p p.text with e | target
    · rw [ht] at h
      cases h
    · exact htarget t₁ _ _ ht

/-- A write that succeeds makes directories and then changes one file. -/
theorem saveText_ok (hb : start.base = some base) (hc : start.confined = true)
    (hp : p.parts = (dirs ++ [s]).map .name) {text : String}
    (h : t.saveText start p text = (.ok (), t')) :
    p.Leads (dirs ++ [s]) ∧ ∃ t₁, Grows dirs t t₁ ∧ t₁.Reachable (base ++ dirs) ∧
      t₁.standing? (base ++ dirs ++ [s]) ≠ some .directory ∧ ∀ loc, t'.standing? loc =
        if loc = base ++ dirs ++ [s] then some (.file text.toUTF8) else t₁.standing? loc := by
  obtain ⟨q, hq, hparts, -, -⟩ := Path.exists_parent?_of_names hp
  have hgrows := makeDirectories_grows (t := t) hb hparts
  rw [saveText, saveBytes, hq, Option.getD_some] at h
  rcases hmake : t.makeDirectories start q with ⟨r, t₁⟩
  rw [hmake] at h hgrows
  rcases r with e | ⟨⟨⟩⟩
  · cases h
  · simp only [writeBytes] at h
    split at h
    · cases h
    · cases h
    · rename_i parent inside name htarget
      obtain ⟨rfl, hloc, hr, hstanding, -⟩ := child_of_target hb hp htarget
      refine ⟨leads_of_target hb hc hp htarget, t₁, hgrows, hr, ?_⟩
      split at h
      · cases h
      · split at h
        · cases h
        · rename_i hnodir
          obtain ⟨-, rfl⟩ := Prod.mk.inj h
          -- a directory in the place of the file would have been refused
          have hd : t₁.standing? (base ++ dirs ++ [name]) ≠ some .directory := by
            rw [hstanding]
            rcases hf : inside.find? name with _ | ⟨c⟩ | ⟨d⟩
            · simp
            · simp [Entry.standing]
            · exact absurd hf (hnodir d)
          rw [hloc]
          exact ⟨hd, standing?_put_file hr.1 hd _⟩

section

variable {text : String} (hb : start.base = some base) (hc : start.confined = true)
  (hp : p.parts = (dirs ++ [s]).map .name) (h : t.saveText start p text = (.ok (), t'))

include hb hc hp h

/-- Afterwards the file is there. -/
theorem saveText_file : t'.standing? (base ++ dirs ++ [s]) = some (.file text.toUTF8) := by
  obtain ⟨-, t₁, -, -, -, hall⟩ := saveText_ok hb hc hp h
  rw [hall, if_pos rfl]

/-- The other files are what they were. -/
theorem saveText_file_iff {loc : Location} (hloc : loc ≠ base ++ dirs ++ [s]) {c : ByteArray} :
    t'.standing? loc = some (.file c) ↔ t.standing? loc = some (.file c) := by
  obtain ⟨-, t₁, hgrows, -, -, hall⟩ := saveText_ok hb hc hp h
  rw [hall, if_neg hloc]
  exact hgrows.file_iff

theorem saveText_keeps : Keeps t t' := by
  obtain ⟨-, t₁, hgrows, -, hnodir, hall⟩ := saveText_ok hb hc hp h
  intro loc hd
  have hloc : loc ≠ base ++ dirs ++ [s] := by
    rintro rfl
    exact hnodir (hgrows.directory hd)
  rw [hall, if_neg hloc]
  exact hgrows.directory hd

end

/-- A removal that succeeds takes one file away. -/
theorem removeFile_ok (hb : start.base = some base) (hp : p.parts = (dirs ++ [s]).map .name)
    (h : t.removeFile start p = (.ok (), t')) :
    (∃ c, t.standing? (base ++ dirs ++ [s]) = some (.file c)) ∧
      ∀ loc, t'.standing? loc = if loc = base ++ dirs ++ [s] then none else t.standing? loc := by
  rw [removeFile] at h
  split at h
  · cases h
  · cases h
  · rename_i parent inside name htarget
    obtain ⟨rfl, hloc, -, hstanding, -⟩ := child_of_target hb hp htarget
    rcases hf : inside.find? name with _ | ⟨c⟩ | ⟨d⟩ <;> rw [hf] at h hstanding
    · cases h
    · simp only at h
      split at h
      · cases h
      · obtain ⟨-, rfl⟩ := Prod.mk.inj h
        exact ⟨⟨c, hstanding⟩, fun loc => hloc ▸ standing?_drop_file hstanding loc⟩
    · cases h

/-- A removal that finds nothing changes nothing, and nothing stands at the path. -/
theorem removeFile_notFound (hb : start.base = some base) (hc : start.confined = true)
    (hr : t.Reachable base) (hp : p.parts = (dirs ++ [s]).map .name)
    (h : t.removeFile start p = (.error .notFound, t')) :
    t' = t ∧ t.standing? (base ++ dirs ++ [s]) = none := by
  rw [removeFile] at h
  split at h
  · rename_i e htarget
    obtain ⟨he, rfl⟩ := Prod.mk.inj h
    obtain rfl : e = .notFound := by simpa using he
    refine ⟨rfl, ?_⟩
    rw [List.append_assoc]
    exact standing?_of_target_notFound hb hc hr hp htarget
  · cases h
  · rename_i parent inside name htarget
    obtain ⟨rfl, -, -, hstanding, -⟩ := child_of_target hb hp htarget
    rcases hf : inside.find? name with _ | ⟨c⟩ | ⟨d⟩ <;> rw [hf] at h hstanding
    · obtain ⟨-, rfl⟩ := Prod.mk.inj h
      exact ⟨rfl, hstanding⟩
    · simp only at h
      split at h <;> cases h
    · cases h

/-- A path with a leading slash leads outside, which is another fault than leading to nothing. -/
theorem target_root (hb : start.base = some base) (hc : start.confined = true)
    (hr : t.Reachable base) {rest : List Path.Part} (hp : p.parts = .root :: rest) :
    ∃ e, e ≠ .notFound ∧ t.target start p looked = .error e := by
  have hwalk : ∀ more, t.walk start (.root :: more) = .error .leadsOutside := by
    intro more
    obtain ⟨here, hstart⟩ := exists_startingPlace hb hr
    rw [walk, hstart]
    simp [step, hc, bind, Except.bind]
  rw [target]
  rcases hcheck : checkPath start looked with e | ⟨⟨⟩⟩
  · refine ⟨e, ?_, rfl⟩
    rintro rfl
    simp only [checkPath, hc] at hcheck
    split at hcheck
    · cases hcheck
    · split at hcheck
      · cases hcheck
      · simp at hcheck
  · refine ⟨.leadsOutside, by simp, ?_⟩
    rw [hp]
    simp only [bind, Except.bind]
    split
    · rename_i s _ hlast
      cases rest with
      | nil => simp at hlast
      | cons part rest => rw [List.dropLast_cons_of_ne_nil (List.cons_ne_nil _ _), hwalk]
    · rw [hwalk]

/-- A path with a leading slash cannot be removed, and it is not said that nothing is there. -/
theorem removeFile_root (hb : start.base = some base) (hc : start.confined = true)
    (hr : t.Reachable base) {rest : List Path.Part} (hp : p.parts = .root :: rest)
    {res : Except Fault Unit} (h : t.removeFile start p = (res, t')) :
    res ≠ .ok () ∧ res ≠ .error .notFound := by
  obtain ⟨e, hne, htarget⟩ : ∃ e, e ≠ .notFound ∧
      t.target start p (lookedUp start p) = .error e := target_root hb hc hr hp
  rw [removeFile, htarget] at h
  obtain ⟨rfl, -⟩ := Prod.mk.inj h
  simp [hne]

/-! ## When writing succeeds

The laws so far say what happened if a write went well. A round that is repeated also needs to know
that it goes well: the path can be looked up, no file is where a directory has to be, and no
directory is where the file has to be. Directories that are missing on the way are made, each by the
time it is needed. -/

/-- The way along the names is free: no file stands on it. -/
def FreeWay (t : Tree) (base : Location) (names : List String) : Prop :=
  ∀ pre, pre <+: names → ∀ c, t.standing? (base ++ pre) ≠ some (.file c)

/-- A way that is free is free up to anywhere. -/
theorem FreeWay.of_append {more : List String} (h : t.FreeWay base (names ++ more)) :
    t.FreeWay base names := fun pre hpre => h pre (hpre.trans (List.prefix_append _ _))

/-- It stays free when directories are made, since no file appears. -/
theorem FreeWay.grows (h : t.FreeWay base names) {names' : List String} (hg : Grows names' t t') :
    t'.FreeWay base names := fun pre hpre c hc => h pre hpre c (hg.file_iff.1 hc)

/-- A directory can be made or is there already if the one that is to hold it is there and no file
is in its place. -/
theorem ensureDirectory_total (hb : start.base = some base) (hc : start.confined = true)
    (hlead : p.Leads (dirs ++ [s])) (hr : t.Reachable (base ++ dirs))
    (hfree : t.FreeWay base (dirs ++ [s])) : ∃ t', t.ensureDirectory start p = (.ok (), t') ∧
      t'.Reachable (base ++ (dirs ++ [s])) := by
  obtain ⟨parent, inside, htarget⟩ := exists_target hb hlead (hlead.checkPath_lookedUp hc) hr
  obtain ⟨-, hloc, -, hstanding, -⟩ := child_of_target hb hlead.parts_eq htarget
  have hshort : ∀ name ∈ base ++ (dirs ++ [s]), name.utf8ByteSize ≤ maxNameLength := by
    intro name hname
    rcases List.mem_append.1 hname with hname | hname
    · exact hr.of_append.2 name hname
    · exact hlead.short name hname
  rw [ensureDirectory, makeDirectory, htarget]
  rcases hf : inside.find? s with _ | ⟨c⟩ | ⟨d⟩ <;> rw [hf] at hstanding
  · simp only [hf]
    refine ⟨_, rfl, ?_, hshort⟩
    rw [hloc, standing?_put_directory hr.1 hstanding, if_pos (List.append_assoc _ _ _).symm]
  · exact absurd (List.append_assoc _ _ _ ▸ hstanding) (hfree _ (List.prefix_refl _) c)
  · simp only [hf, isDirectory_of_standing? hb hc hlead hr hstanding, if_true]
    exact ⟨t, rfl, List.append_assoc _ _ _ ▸ hstanding, hshort⟩

/-- The directory that is to hold another one is missing. -/
theorem ensureDirectory_notFound (hb : start.base = some base) (hc : start.confined = true)
    (hlead : p.Leads (dirs ++ [s])) (hr : t.Reachable base)
    (hfree : t.FreeWay base (dirs ++ [s])) (hmissing : ¬t.Reachable (base ++ dirs)) :
    t.ensureDirectory start p = (.error .notFound, t) := by
  have hwalk : t.walk start (dirs.map .name) = .error .notFound := by
    have hshort : ∀ name ∈ dirs, name.utf8ByteSize ≤ maxNameLength := fun name hname =>
      hlead.short name (List.mem_append_left _ hname)
    rcases walk_names_of_free hb hr hshort hfree.of_append with hok | hnone
    · exact absurd ((exists_walk_names_iff hb).1 hok) hmissing
    · exact hnone
  have htarget : ∀ {looked : String}, checkPath start looked = .ok () →
      t.target start p looked = .error .notFound := by
    intro looked hcheck
    have hlast : p.parts.getLast? = some (.name s) := by
      rw [hlead.parts_eq, List.map_append, List.map_cons, List.map_nil, List.getLast?_concat]
    have hinit : p.parts.dropLast = dirs.map .name := by
      rw [hlead.parts_eq, List.map_append, List.map_cons, List.map_nil, List.dropLast_concat]
    rw [target, hcheck]
    simp only [hlead.endsInName (by simp), hlast, hinit, hwalk]
    rfl
  have hnodir : t.isDirectory start p = false := by
    rw [isDirectory, find, htarget (hlead.checkPath hc)]
    rfl
  rw [ensureDirectory, makeDirectory, htarget (hlead.checkPath_lookedUp hc)]
  simp [hnodir]

/-- All directories along a free way can be made. By induction on the names, the last one taken off.
-/
theorem ensureDirectories_total (hb : start.base = some base) (hc : start.confined = true)
    (hlead : p.Leads names) (hr : t.Reachable base) (hfree : t.FreeWay base names) :
    ∃ t', t.ensureDirectories start names.length p = (.ok (), t') ∧
      t'.Reachable (base ++ names) := by
  induction hn : names.length generalizing p names with
  | zero =>
    obtain rfl : names = [] := List.eq_nil_of_length_eq_zero hn
    exact ⟨t, rfl, by simpa using hr⟩
  | succ n ih =>
    have hne : names ≠ [] := by
      rintro rfl
      simp at hn
    obtain ⟨dirs, s, rfl⟩ := (List.eq_nil_or_concat' names).resolve_left hne
    have hlen : dirs.length = n := by simpa using hn
    obtain ⟨q, hq, hqlead⟩ := hlead.exists_parent?
    rw [ensureDirectories, hq]
    by_cases hdirs : t.Reachable (base ++ dirs)
    · -- only the last directory may be missing
      obtain ⟨t', ht', hreach⟩ := ensureDirectory_total hb hc hlead hdirs hfree
      simp only [ht']
      exact ⟨t', rfl, hreach⟩
    · -- the directory above is missing too, and is made first
      obtain ⟨t₁, ht₁, hreach⟩ := ih hqlead hfree.of_append hlen
      have hgrows : Grows dirs t t₁ := by
        have := ensureDirectories_grows (t := t) (n := n) hb hqlead.parts_eq
          (Nat.le_of_eq hlen.symm)
        rwa [ht₁] at this
      obtain ⟨t', ht', hreach'⟩ := ensureDirectory_total hb hc hlead hreach (hfree.grows hgrows)
      simp only [ensureDirectory_notFound hb hc hlead hr hfree hdirs, ht₁]
      exact ⟨t', ht', hreach'⟩

/-- A file can be written if its path can be looked up, no file is on the way and no directory is
in its place. -/
theorem saveText_total (hb : start.base = some base) (hc : start.confined = true)
    (hlead : p.Leads (dirs ++ [s])) (hslash : p.endsInSlash = false) (hr : t.Reachable base)
    (hfree : t.FreeWay base dirs)
    (hnodir : ∀ t', Grows dirs t t' → t'.standing? (base ++ dirs ++ [s]) ≠ some .directory)
    (text : String) : ∃ t', t.saveText start p text = (.ok (), t') := by
  obtain ⟨q, hq, hqlead⟩ := hlead.exists_parent?
  obtain ⟨t₁, ht₁, hreach⟩ := ensureDirectories_total hb hc hqlead hr hfree
  have hgrows := ensureDirectories_grows (t := t) (n := dirs.length) hb hqlead.parts_eq
    (Nat.le_refl _)
  rw [ht₁] at hgrows
  have hmake : t.makeDirectories start q = (.ok (), t₁) := by
    rw [makeDirectories, hqlead.parts_eq, List.length_map, ht₁]
  obtain ⟨parent, inside, htarget⟩ := exists_target hb hlead (hlead.checkPath hc) hreach
  obtain ⟨-, -, -, hstanding, -⟩ := child_of_target hb hlead.parts_eq htarget
  have hd := hnodir t₁ hgrows
  rw [hstanding] at hd
  rw [saveText, saveBytes, hq, Option.getD_some, hmake]
  simp only [writeBytes, htarget, hslash, Bool.false_eq_true, if_false]
  rcases hf : inside.find? s with _ | ⟨c⟩ | ⟨d⟩
  · exact ⟨_, rfl⟩
  · exact ⟨_, rfl⟩
  · rw [hf] at hd
    exact absurd rfl hd

end Tree

end PlatformWiring
