import PlatformWiring.Output.Session
import PlatformWiring.Proofs.Output.Files

/-!
# Disks that fail

A disk may fail at any operation, but an honest one does nothing that it was not asked for. A save
that succeeds is what it is on the sound disk; one that fails may have made directories and begun
the file, and has left every other file alone. A removal succeeds or changes nothing.

Nothing is assumed here about the paths: the laws hold wherever a path leads.
-/

namespace PlatformWiring

namespace Tree

variable {t t' t'' : Tree} {start : Start} {base loc : Location} {p : Path}

/-! ## Files that stay

The laws of the module on file operations are about paths of names. Here a path may be anything,
with a leading slash or with full stops in it, so less can be said: that no file changes, without
saying where directories appear. -/

/-- The trees have the same files, and directories stay. -/
structure SameFiles (t t' : Tree) : Prop where
  /-- directories stay -/
  keeps : t.Keeps t'
  /-- the files are the same -/
  file_iff : ∀ loc c, t'.standing? loc = some (.file c) ↔ t.standing? loc = some (.file c)

theorem SameFiles.refl (t : Tree) : SameFiles t t := ⟨.refl t, fun _ _ => .rfl⟩

/-- The files that were the same twice are the same. -/
theorem SameFiles.trans (h : SameFiles t t') (h' : SameFiles t' t'') : SameFiles t t'' :=
  ⟨h.keeps.trans h'.keeps, fun loc c => (h'.file_iff loc c).trans (h.file_iff loc c)⟩

/-- What is read at a location is the same. -/
theorem SameFiles.content?_eq (h : SameFiles t t') (loc : Location) :
    t'.content? loc = t.content? loc :=
  Option.ext fun c => by
    rw [content?_eq_some_iff, content?_eq_some_iff]
    exact h.file_iff loc c

/-- Making one directory changes no file: it makes an entry where there was none. -/
theorem makeDirectory_sameFiles (hb : start.base = some base) (t : Tree) (p : Path) :
    SameFiles t (t.makeDirectory start p).2 := by
  rw [makeDirectory]
  split
  · exact .refl t
  · exact .refl t
  · rename_i parent inside name htarget
    obtain ⟨-, -, -, hwalk, -, hinside, -⟩ := target_eq_child_iff.1 htarget
    have hin := in_of_walk hb hwalk
    have hstanding := hin.standing?_name hinside name
    rcases hf : inside.find? name with _ | e
    · rw [hf] at hstanding
      have hall := standing?_put_directory hin.reachable.1 hstanding
      constructor
      · intro loc hd
        rw [Place.locate, hall]
        split
        · rfl
        · exact hd
      · intro loc c
        rw [Place.locate, hall]
        split
        · rename_i hloc
          rw [hloc, hstanding]
          simp
        · exact .rfl
    · exact .refl t

/-- Nor does making several of them. By induction on how many are asked for. -/
theorem ensureDirectories_sameFiles (hb : start.base = some base) (n : Nat) (t : Tree) (p : Path) :
    SameFiles t (t.ensureDirectories start n p).2 := by
  induction n generalizing t p with
  | zero => exact .refl t
  | succ n ih =>
    have hensure : ∀ t : Tree, SameFiles t (t.ensureDirectory start p).2 := fun t => by
      rw [ensureDirectory_snd]
      exact makeDirectory_sameFiles hb t p
    rw [ensureDirectories]
    split
    · exact .refl t
    · rename_i above _
      split
      · have hrec := ih t above
        split
        · rename_i t₁ h₁
          rw [h₁] at hrec
          exact hrec.trans (hensure t₁)
        · exact hrec
      · exact hensure t

/-- Making directories changes no file, wherever the path leads. -/
theorem makeDirectories_sameFiles (hb : start.base = some base) (t : Tree) (p : Path) :
    SameFiles t (t.makeDirectories start p).2 :=
  ensureDirectories_sameFiles hb _ t p

/-! ## Where a path leads

A path leads to at most one location, and every operation on a file works at that one. For a path of
names this is the location of the names; a path with a leading slash leads nowhere below the root.
-/

/-- Below the root the path leads to the location. -/
def LeadsTo (t : Tree) (base : Location) (p : Path) (loc : Location) : Prop :=
  ∃ parent inside name, t.target (.below (some base)) p p.text = .ok (.child parent inside name) ∧
    parent.locate name = loc

/-- A path of names leads to their location, if it leads anywhere. -/
theorem LeadsTo.eq_of_names {dirs : List String} {s : String} (h : t.LeadsTo base p loc)
    (hp : p.parts = (dirs ++ [s]).map .name) : loc = base ++ dirs ++ [s] := by
  obtain ⟨parent, inside, name, htarget, rfl⟩ := h
  obtain ⟨rfl, hloc, -⟩ := child_of_target rfl hp htarget
  exact hloc

/-- A path with a leading slash leads nowhere. -/
theorem not_leadsTo_of_root {rest : List Path.Part} (hp : p.parts = .root :: rest) :
    ¬t.LeadsTo base p loc := by
  rintro ⟨parent, inside, name, htarget, -⟩
  obtain ⟨-, -, hlast, hwalk, -⟩ := target_eq_child_iff.1 htarget
  rw [hp] at hlast hwalk
  cases rest with
  | nil => cases hlast
  | cons part rest =>
    rw [List.dropLast_cons_of_ne_nil (List.cons_ne_nil _ _), walk, bind_eq_ok_iff] at hwalk
    obtain ⟨here, -, hsteps⟩ := hwalk
    rw [List.foldlM_cons, bind_eq_ok_iff] at hsteps
    obtain ⟨next, hnext, -⟩ := hsteps
    cases hnext

/-- Where a file is found the path leads. -/
theorem exists_leadsTo_of_isFile (h : t.isFile (.below (some base)) p = true) :
    ∃ loc, t.LeadsTo base p loc := by
  rw [isFile] at h
  split at h
  · rename_i c hfind
    rw [find, bind_eq_ok_iff] at hfind
    obtain ⟨target, htarget, hfind⟩ := hfind
    cases target with
    | directory place => cases hfind
    | child parent inside name => exact ⟨_, parent, inside, name, htarget, rfl⟩
  · cases h

/-- A removal that succeeds takes away the file at some location. Which one it is depends on the
path, and at this point it does not matter. -/
theorem exists_of_removeFile_ok (hb : start.base = some base)
    (h : t.removeFile start p = (.ok (), t')) :
    ∃ at_, ∀ loc, t'.standing? loc = if loc = at_ then none else t.standing? loc := by
  rw [removeFile] at h
  split at h
  · cases h
  · cases h
  · rename_i parent inside name htarget
    obtain ⟨-, -, -, hwalk, -, hinside, -⟩ := target_eq_child_iff.1 htarget
    have hstanding := (in_of_walk hb hwalk).standing?_name hinside name
    rcases hf : inside.find? name with _ | ⟨c⟩ | ⟨d⟩ <;> rw [hf] at h hstanding
    · cases h
    · simp only at h
      split at h
      · cases h
      · obtain ⟨-, rfl⟩ := Prod.mk.inj h
        exact ⟨_, standing?_drop_file hstanding⟩
    · cases h

/-- A removal that fails changes nothing. -/
theorem eq_of_removeFile_error {e : Fault} (h : t.removeFile start p = (.error e, t')) :
    t' = t := by
  rw [removeFile] at h
  split at h
  · exact (Prod.mk.inj h).2.symm
  · exact (Prod.mk.inj h).2.symm
  · split at h
    · exact (Prod.mk.inj h).2.symm
    · exact (Prod.mk.inj h).2.symm
    · split at h
      · exact (Prod.mk.inj h).2.symm
      · cases h

/-! ## What a failed save leaves

A save can fail at the directories, at the file, or in the middle of its text. `Begun` is what all
of these have in common. It is an upper bound: a disk is honest as long as it stays within it, and
where a theorem is about all honest disks, any of these faults may have happened at any write. -/

/-- What a save that failed may have done: directories were made, and the file that the path leads
to holds the beginning of the text. -/
structure Begun (base : Location) (p : Path) (text : String) (t t' : Tree) : Prop where
  /-- directories stay -/
  keeps : t.Keeps t'
  /-- every other file is the same -/
  other : ∀ loc c, ¬t'.LeadsTo base p loc →
    (t'.standing? loc = some (.file c) ↔ t.standing? loc = some (.file c))
  /-- and this one too, unless it was begun -/
  begun : ∀ loc c, t'.standing? loc = some (.file c) →
    t.standing? loc = some (.file c) ∨ ∃ rest, c ++ rest = text.toUTF8

/-- A save that changed no file is one that began nothing. -/
theorem SameFiles.begun (h : SameFiles t t') (base : Location) (p : Path) (text : String) :
    Begun base p text t t' where
  keeps := h.keeps
  other := fun loc c _ => h.file_iff loc c
  begun := fun loc c hc => Or.inl ((h.file_iff loc c).1 hc)

/-- A save that fails on the sound disk has only made directories. -/
theorem saveText_error (hb : start.base = some base) {text : String} {e : Fault}
    (h : t.saveText start p text = (.error e, t')) : SameFiles t t' := by
  have hmake := makeDirectories_sameFiles hb t (p.parent?.getD p)
  rw [saveText, saveBytes] at h
  split at h
  · rename_i t₁ h₁
    rw [h₁] at hmake
    have hwrite : t' = t₁ := by
      rw [writeBytes] at h
      split at h
      · exact (Prod.mk.inj h).2.symm
      · exact (Prod.mk.inj h).2.symm
      · split at h
        · exact (Prod.mk.inj h).2.symm
        · split at h
          · exact (Prod.mk.inj h).2.symm
          · cases h
    rw [hwrite]
    exact hmake
  · rw [h] at hmake
    exact hmake

end Tree

namespace Disk

/-- The disk may fail, but it does nothing that it is not asked for. This is the assumption on disks
throughout: when an operation succeeds and when it fails is left open, and so is how much of a text
was written before a fault. -/
structure Honest (disk : Disk) : Prop where
  /-- a save that succeeds does what it does on the sound disk -/
  save_ok : ∀ {t base p text t'}, disk.save t (some base) p text = (.ok (), t') →
    t.saveText (.below (some base)) p text = (.ok (), t')
  /-- a save that fails may have begun the file -/
  save_error : ∀ {t base p text e t'}, disk.save t (some base) p text = (.error e, t') →
    t.Begun base p text t'
  /-- a removal that succeeds does what it does on the sound disk -/
  delete_ok : ∀ {t base p t'}, disk.delete t (some base) p = (.ok (), t') →
    t.removeFile (.below (some base)) p = (.ok (), t')
  /-- a removal that fails changes nothing -/
  delete_error : ∀ {t base p e t'}, disk.delete t (some base) p = (.error e, t') → t' = t

theorem sound_honest : Disk.sound.Honest := by
  constructor
  case save_ok =>
    intro t base p text t' h
    simpa only [Disk.sound] using h
  case save_error =>
    intro t base p text e t' h
    simp only [Disk.sound] at h
    exact (Tree.saveText_error rfl h).begun _ _ _
  case delete_ok =>
    intro t base p t' h
    simpa only [Disk.sound] using h
  case delete_error =>
    intro t base p e t' h
    simp only [Disk.sound] at h
    exact Tree.eq_of_removeFile_error h

/-- A disk that saves nothing. -/
def refusing : Disk where
  save t _ _ _ := (.error .nameTooLong, t)
  delete t root p := t.removeFile (.below root) p

theorem refusing_honest : refusing.Honest where
  save_ok := fun h => by cases h
  save_error := by
    intro t base p text e t' h
    rw [← (Prod.mk.inj h).2]
    exact (Tree.SameFiles.refl t).begun _ _ _
  delete_ok := by
    intro t base p t' h
    simpa only [refusing] using h
  delete_error := by
    intro t base p e t' h
    simp only [refusing] at h
    exact Tree.eq_of_removeFile_error h

/-- An honest disk that does not say that a file is missing when it is there. Discarding takes a
file that is missing for one that is gone, so without this a listed source could be left behind
unnoticed. -/
structure Candid (disk : Disk) : Prop extends disk.Honest where
  /-- a removal that finds nothing does what it does on the sound disk -/
  delete_notFound : ∀ {t base p t'}, disk.delete t (some base) p = (.error .notFound, t') →
    t.removeFile (.below (some base)) p = (.error .notFound, t')

theorem sound_candid : Disk.sound.Candid where
  toHonest := sound_honest
  delete_notFound := by
    intro t base p t' h
    simpa only [Disk.sound] using h

namespace Honest

variable {disk : Disk} {t t' : Tree} {base loc : Location} {p : Path} {text : String}

/-- A save that succeeds puts the text in the file. -/
theorem content?_save_ok (hdisk : disk.Honest) {dirs : List String} {s : String}
    (hp : p.parts = (dirs ++ [s]).map .name)
    (h : disk.save t (some base) p text = (.ok (), t')) :
    t'.content? (base ++ (dirs ++ [s])) = some text.toUTF8 := by
  rw [Tree.content?_eq_some_iff, ← List.append_assoc]
  exact Tree.saveText_file rfl rfl hp (hdisk.save_ok h)

/-- A save leaves every other file alone, whether it succeeds or not. A path with a leading slash
leads to no file at all. -/
theorem content?_save (hdisk : disk.Honest) {res : Except Fault Unit}
    (hp : (∃ rest, p.parts = .root :: rest) ∨
      ∃ dirs s, p.parts = (dirs ++ [s]).map .name ∧ loc ≠ base ++ (dirs ++ [s]))
    (h : disk.save t (some base) p text = (res, t')) : t'.content? loc = t.content? loc := by
  refine Option.ext fun c => ?_
  rw [Tree.content?_eq_some_iff, Tree.content?_eq_some_iff]
  rcases res with e | ⟨⟨⟩⟩
  · refine (hdisk.save_error h).other loc c fun hleads => ?_
    rcases hp with ⟨rest, hroot⟩ | ⟨dirs, s, hp, hne⟩
    · exact Tree.not_leadsTo_of_root hroot hleads
    · exact hne (by rw [hleads.eq_of_names hp, List.append_assoc])
  · rcases hp with ⟨rest, hroot⟩ | ⟨dirs, s, hp, hne⟩
    · exact absurd (hdisk.save_ok h) (Tree.saveText_root rfl hroot _)
    · exact Tree.saveText_file_iff rfl rfl hp (hdisk.save_ok h)
        (by rwa [List.append_assoc])

/-- A save that fails leaves what was in a file, or the beginning of its text. -/
theorem content?_save_error (hdisk : disk.Honest) {e : Fault} {c : ByteArray}
    (h : disk.save t (some base) p text = (.error e, t')) (hc : t'.content? loc = some c) :
    t.content? loc = some c ∨ ∃ rest, c ++ rest = text.toUTF8 := by
  rw [Tree.content?_eq_some_iff] at hc ⊢
  exact (hdisk.save_error h).begun loc c hc

/-- After a removal no file is there that was not there before. -/
theorem content?_delete (hdisk : disk.Honest) {res : Except Fault Unit} {c : ByteArray}
    (h : disk.delete t (some base) p = (res, t')) (hc : t'.content? loc = some c) :
    t.content? loc = some c := by
  rcases res with e | ⟨⟨⟩⟩
  · rwa [hdisk.delete_error h] at hc
  · obtain ⟨at_, hall⟩ := Tree.exists_of_removeFile_ok rfl (hdisk.delete_ok h)
    rw [Tree.content?_eq_some_iff] at hc ⊢
    rw [hall] at hc
    split at hc
    · cases hc
    · exact hc

end Honest

end Disk

end PlatformWiring
