import PlatformWiring.Proofs.Output.Attempts

/-!
# What the end of a session deletes and records

A session that ends well has deleted the files that were listed when it began and that nobody asked
for since, and it has saved a record of the paths where the last attempt went well. Every other
file is what it was, those included whose write failed. Ending the session once more saves the same
record and does nothing else.

The record may list any paths that do not begin with a full stop, go up nowhere and are not the
path of the record. Those with a leading slash cannot be deleted, so a session that is not asked for
them does not end well.
-/

namespace PlatformWiring

namespace Session

variable {here base : Location} {root : Path} {t t₀ t' : Tree} {r : Record} {s : Session}
  {st : Session × Tree} {disk : Disk} {as : List Attempt}

/-! ## From the start of a session to its end

The record at the start may come from anybody, so only what reading guarantees is used of it. In the
other direction nothing is left to do after an end that went well, and for that reason ending again
changes nothing but saves the record once more. -/

/-- What is loaded as a record lists sources by the parts of their paths, and these are no empty
texts and fit on a line. That is so whatever the record file holds, and it is all that is known
about a record that somebody else may have written. -/
theorem of_loadRecord (h : loadRecord t base = .ok r) :
    r.Keyed ∧ ∀ p ∈ r.paths, p.text ≠ "" ∧ '\n' ∉ p.text.toList := by
  rcases content?_of_loadRecord h with rfl | ⟨text, -, rfl⟩
  · exact ⟨Record.keyed_empty, fun p hp => by cases hp⟩
  · exact ⟨Record.keyed_read text, fun p hp =>
      ⟨Record.text_ne_empty_of_mem_paths_read hp, Record.feed_not_mem_of_mem_paths_read hp⟩⟩

/-- A session begins without attempts, and what it has found as a record lists sources by the parts
of their paths. So the invariant of `AfterAttempts` holds at its start. -/
theorem exists_record_of_start (hopen : start here t root = (.ok s, t₀)) (hb : s.base = some base) :
    ∃ r, s = fresh root base r ∧ t₀.locateDirectory (.working here) root = .ok base ∧
      AfterAttempts base t₀ r [] (s, t₀) ∧ r.Keyed ∧
      ∀ p ∈ r.paths, p.text ≠ "" ∧ '\n' ∉ p.text.toList := by
  obtain ⟨base', r, hlocate, hload, rfl⟩ := start_ok hopen
  obtain rfl : base' = base := Option.some.inj hb
  obtain ⟨hkeyed, htexts⟩ := of_loadRecord hload
  exact ⟨r, rfl, hlocate, afterAttempts_fresh root hkeyed, hkeyed, htexts⟩

/-- Saving the record that is there succeeds and changes no file. The file is there already, so its
path can be looked up and nothing is in its way. -/
theorem save_record_again (hr : t.Reachable base) {text : String}
    (h : t.content? (base ++ [Record.entryName]) = some text.toUTF8) :
    (Disk.sound.save t (some base) Record.fileName text).1 = .ok () ∧
      ∀ loc, (Disk.sound.save t (some base) Record.fileName text).2.content? loc =
        t.content? loc := by
  have hfree : t.FreeWay base [] := by
    intro pre hpre c hc
    rw [List.prefix_nil.1 hpre, List.append_nil, hr.1] at hc
    cases hc
  have hnodir : ∀ t', Tree.Grows [] t t' →
      t'.standing? (base ++ [] ++ [Record.entryName]) ≠ some .directory := by
    intro t' hgrows
    rw [List.append_nil, hgrows.file_iff.2 (Tree.content?_eq_some_iff.1 h)]
    simp
  obtain ⟨t', hsave⟩ : ∃ t', Disk.sound.save t (some base) Record.fileName text = (.ok (), t') :=
    @Tree.saveText_total t (.below (some base)) base _ [] _ rfl rfl Record.leads_fileName
      (by decide) hr hfree hnodir text
  rw [hsave]
  refine ⟨rfl, fun loc => ?_⟩
  by_cases hloc : loc = base ++ [Record.entryName]
  · rw [hloc, h]
    exact Disk.sound_honest.content?_save_ok Record.leads_fileName.parts_eq hsave
  · exact Disk.sound_honest.content?_save
      (Or.inr ⟨[], _, Record.leads_fileName.parts_eq, hloc⟩) hsave

/-- Nothing that is listed in the end is stale. A session that has ended remembers the new record as
what was listed before, and all of that was asked for. -/
theorem Closed.stale_eq_nil (h : Closed base r as t st) : st.1.stale = [] := by
  rw [stale, h.previous_eq, h.attempted_eq, List.filter_eq_nil_iff]
  exact fun p hp hunasked => of_decide_eq_true hunasked (h.parts_mem_attempted hp)

/-- Ending once more only saves the record. -/
theorem Closed.finish_again (h : Closed base r as t st) (disk : Disk) :
    finish disk st.1 st.2 =
      ⟨(st.1, (disk.save st.2 (some base) Record.fileName st.1.record.write).2),
        (disk.save st.2 (some base) Record.fileName st.1.record.write).1, []⟩ := by
  have hsame : { st.1 with previous := st.1.record.paths } = st.1 := by rw [← h.previous_eq]
  rw [finish_of_stale_eq_nil disk _ _ h.stale_eq_nil, hsame, h.base_eq]

/-! ## The whole session

What a session leaves is said from outside: by what was listed when it began, by the attempts that
it made, and by the files that are there before and after. What the session keeps in mind is
mentioned only where a user can ask for it. -/

/-- What the end of a session has done. The paths `previous` were listed when the session opened its
root in the tree `t₀`. It made the attempts, and then began its end in the tree `t`. -/
structure Finished (base : Location) (previous : List Path) (as : List Attempt) (t₀ t : Tree)
    (st : Session × Tree) : Prop where
  /-- what was listed and not attempted was deleted, in the order of the old record -/
  removed_eq : st.1.removed =
    previous.filter fun p => decide (p.parts ∉ as.map (·.unit.path.parts))
  /-- none of it is a file any more -/
  gone : ∀ p ∈ st.1.removed, ∃ names : List String, p.parts = names.map .name ∧
    st.2.content? (base ++ names) = none
  /-- the new record is on the disk -/
  recorded : st.2.content? (base ++ [Record.entryName]) = some st.1.record.write.toUTF8
  /-- it has each path once -/
  once : (st.1.record.listing.map Prod.fst).Nodup
  /-- it has those where the last attempt went well, with the digest of the text -/
  listing : ∀ key digest, (key, digest) ∈ st.1.record.listing ↔
    ∃ a, lastAttempt as key = some a ∧ a.result = .ok () ∧ digest = Digest.ofText a.unit.render
  /-- it is read back if its paths fit on a line -/
  load : (∀ p ∈ st.1.record.paths, '\n' ∉ p.text.toList) →
    loadRecord st.2 base = .ok st.1.record
  /-- files that were neither listed nor attempted are what they were when the root was opened -/
  untouched : ∀ names : List String, names ≠ [Record.entryName] →
    names.map .name ∉ previous.map (·.parts) → names.map .name ∉ as.map (·.unit.path.parts) →
      st.2.content? (base ++ names) = t₀.content? (base ++ names)
  /-- so are the files outside the root -/
  outside : ∀ loc, ¬base <+: loc → st.2.content? loc = t₀.content? loc
  /-- files that were attempted, well or not, are what they were before the end -/
  attempted : ∀ names : List String, names.map .name ∈ as.map (·.unit.path.parts) →
    st.2.content? (base ++ names) = t.content? (base ++ names)
  /-- ending once more saves the same record, and that is all -/
  again : ∀ disk : Disk, finish disk st.1 st.2 =
    ⟨(st.1, (disk.save st.2 (some base) Record.fileName st.1.record.write).2),
      (disk.save st.2 (some base) Record.fileName st.1.record.write).1, []⟩
  /-- on a disk that does not fail it goes well and changes no file -/
  again_sound : (finish .sound st.1 st.2).result = .ok () ∧
    ∀ loc, (finish .sound st.1 st.2).state.2.content? loc = st.2.content? loc

/-- **A session that ends well has deleted and recorded the right files.** It opened a root, it was
given units whose names were read, in any order and with repeats, and any of the writes may have
failed. -/
theorem finish_finished {writes : List (Disk × SourceUnit)}
    (hopen : start here t root = (.ok s, t₀)) (hb : s.base = some base)
    (hprevious : ∀ p ∈ s.previous, p.Undotted ∧ p.parts ≠ [.name Record.entryName])
    (hwrites : ∀ w ∈ writes, w.1.Honest ∧ w.2.name.IsRead)
    (hrun : writeEach (s, t₀) writes = (st, as)) (hdisk : disk.Candid)
    (hok : (finish disk st.1 st.2).result = .ok ()) :
    Finished base s.previous as t₀ st.2 (finish disk st.1 st.2).state := by
  obtain ⟨r, rfl, hlocate, hfresh, hkeyed, htexts⟩ := exists_record_of_start hopen hb
  have hreachable := Tree.reachable_of_locateDirectory rfl hlocate
  have hafter := hfresh.writeEach hwrites
  rw [hrun, List.nil_append] at hafter
  have hread : ∀ a ∈ as, a.unit.name.IsRead := by
    intro a ha
    obtain ⟨w, hw, he⟩ := exists_of_mem_attempts hrun ha
    exact he ▸ (hwrites w hw).2
  have hclosed := hafter.finish hkeyed
    (fun p hp => (hprevious p hp).1.parts_cases (htexts p hp).1) hreachable hdisk hok
  have hkeeps := hafter.keeps.trans hclosed.keeps
  constructor
  case removed_eq => exact hclosed.removed_eq
  case gone =>
    intro p hp
    obtain ⟨dirs, file, hnames⟩ := hclosed.names p hp
    have hlisted : p ∈ r.paths := (List.mem_filter.1 (hclosed.removed_eq ▸ hp)).1
    refine ⟨dirs ++ [file], hnames, ?_⟩
    rw [hclosed.file, if_pos (hnames ▸ List.mem_map_of_mem hp)]
    intro he
    rw [he] at hnames
    exact (hprevious p hlisted).2 hnames
  case recorded => exact hclosed.recorded
  case once => exact hclosed.keyed.nodup_listing
  case listing =>
    intro key digest
    rw [hclosed.keyed.mem_listing_iff, hclosed.digest]
  case load =>
    intro hfeed
    exact hclosed.loadRecord_eq (hafter.keeps.reachable hreachable) (hclosed.legible hread hfeed)
  case untouched =>
    intro names hn hunlisted hunasked
    rw [hclosed.file names hn, if_neg, hafter.file names (lastAttempt_eq_none_iff.2 hunasked)]
    rw [hclosed.removed_eq]
    intro hmem
    obtain ⟨p, hp, he⟩ := List.mem_map.1 hmem
    exact hunlisted (List.mem_map.2 ⟨p, (List.mem_filter.1 hp).1, he⟩)
  case outside => exact fun loc hloc => (hclosed.outside loc hloc).trans (hafter.outside loc hloc)
  case attempted => exact fun names => hclosed.content?_of_attempted hread
  case again => exact hclosed.finish_again
  case again_sound =>
    rw [hclosed.finish_again]
    exact save_record_again (hkeeps.reachable hreachable) hclosed.recorded

/-- The record of two old sources. -/
def oldRecord : String := "0 app/Old.java\n0 app/B.java\n"

/-- An output root with two old sources and a file that is not listed. -/
def oldRoot : Tree :=
  .entry "out" (.directory
    (.entry Record.entryName (.file oldRecord.toUTF8)
      (.entry "app" (.directory
        (.entry "Old.java" (.file "class Old".toUTF8)
          (.entry "B.java" (.file "class B".toUTF8)
            (.entry "Notes.java" (.file "class Notes".toUTF8) .empty)))) .empty))) .empty

/-- The session that finds this root. -/
def oldSession : Session := fresh ⟨"out"⟩ ["out"] (Record.read oldRecord)

/-- Opening that root finds the record and leaves the tree as it is. -/
theorem start_oldRoot : start [] oldRoot ⟨"out"⟩ = (.ok oldSession, oldRoot) := by
  have hlocate : oldRoot.locateDirectory (.working []) ⟨"out"⟩ = .ok ["out"] := rfl
  have hstanding : oldRoot.standing? (["out"] ++ [Record.entryName]) =
      some (.file oldRecord.toUTF8) := rfl
  rw [start_of_locateDirectory hlocate, loadRecord_of_standing?
    (Tree.reachable_of_locateDirectory rfl hlocate) hstanding]
  rfl

/-- A new component is written, and an old one cannot be. The other old source is deleted, and the
one that could not be written stays and is not listed. -/
theorem oldRoot_finished : ∃ st as,
    writeEach (oldSession, oldRoot)
        [(.sound, emptyComponent "A"), (.refusing, emptyComponent "B")] = (st, as) ∧
      (finish .sound st.1 st.2).result = .ok () ∧
      Finished ["out"] oldSession.previous as oldRoot st.2 (finish .sound st.1 st.2).state ∧
      oldSession.previous = [⟨"app/Old.java"⟩, ⟨"app/B.java"⟩] ∧
      (finish .sound st.1 st.2).state.1.removed = [⟨"app/Old.java"⟩] ∧
      (finish .sound st.1 st.2).state.1.record.paths = [⟨"app/A.java"⟩] ∧
      (finish .sound st.1 st.2).state.2.content? ["out", "app", "B.java"] =
        some "class B".toUTF8 := by
  have hwrites : ∀ w ∈ [(Disk.sound, emptyComponent "A"), (Disk.refusing, emptyComponent "B")],
      w.1.Honest ∧ w.2.name.IsRead := by
    intro w hw
    rcases List.mem_pair.1 hw with rfl | rfl
    · exact ⟨Disk.sound_honest, "app.A", rfl⟩
    · exact ⟨Disk.refusing_honest, "app.B", rfl⟩
  have hprevious : ∀ p ∈ oldSession.previous,
      p.Undotted ∧ p.parts ≠ [.name Record.entryName] := by
    decide +kernel
  have hfacts : ∃ w, writeEach (oldSession, oldRoot)
        [(.sound, emptyComponent "A"), (.refusing, emptyComponent "B")] = w ∧
      (finish .sound w.1.1 w.1.2).result = .ok () ∧
      oldSession.previous = [⟨"app/Old.java"⟩, ⟨"app/B.java"⟩] ∧
      (finish .sound w.1.1 w.1.2).state.1.removed = [⟨"app/Old.java"⟩] ∧
      (finish .sound w.1.1 w.1.2).state.1.record.paths = [⟨"app/A.java"⟩] ∧
      (finish .sound w.1.1 w.1.2).state.2.content? ["out", "app", "B.java"] =
        some "class B".toUTF8 :=
    ⟨_, rfl, by decide +kernel⟩
  obtain ⟨⟨st, as⟩, hrun, hok, hfacts⟩ := hfacts
  exact ⟨st, as, hrun, hok,
    finish_finished start_oldRoot rfl hprevious hwrites hrun Disk.sound_candid hok, hfacts⟩

end Session

end PlatformWiring
