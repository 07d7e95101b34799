import PlatformWiring.Output.Session
import PlatformWiring.Proofs.Output.Faulty
import PlatformWiring.Proofs.Output.Files
import PlatformWiring.Proofs.Output.Record
import PlatformWiring.Proofs.Output.Sink
import PlatformWiring.Proofs.Source.Path

/-!
# What a session keeps true of its root

A session that meets no fault keeps its record and its root in step: every file below the
root other than the record has the text of a source unit, and the record has the digest of
that text. This holds when the session begins, every write keeps it, and so does every
removal. On top of it the session makes sure that each unit which it was given is there,
unless a later one took its place, and in the end nothing else is there.

No two texts among the units may have the same digest. Without that a write could take an
old text for the new one.
-/

namespace PlatformWiring

/-- Units that an output root can be asked to hold: their names were read, their paths fit on a
line of the record, and the digests tell their texts apart. -/
structure Emittable (units : List SourceUnit) : Prop where
  /-- the names were read -/
  read : ∀ u ∈ units, u.name.IsRead
  /-- the paths fit on a line -/
  feed_not_mem : ∀ u ∈ units, '\n' ∉ u.path.text.toList
  /-- the digests differ where the texts do -/
  render_eq : ∀ u ∈ units, ∀ v ∈ units,
    Digest.ofText u.render = Digest.ofText v.render → u.render = v.render

/-- The last of the units that have a path. Units may share a path, and then each one replaces what
the one before it left. -/
def latest (us : List SourceUnit) (key : List Path.Part) : Option SourceUnit :=
  us.reverse.find? fun u => decide (u.path.parts = key)

section latest

variable {us : List SourceUnit} {key : List Path.Part} {u : SourceUnit}

/-- One more unit is the last for its own path. -/
theorem latest_concat (us : List SourceUnit) (u : SourceUnit) (key : List Path.Part) :
    latest (us ++ [u]) key = if u.path.parts = key then some u else latest us key := by
  rw [latest, List.reverse_append, List.reverse_singleton, List.singleton_append,
    List.find?_cons]
  by_cases h : u.path.parts = key
  · simp [h]
  · simp [h, latest]

/-- It is one of the units, and it has the path. -/
theorem mem_of_latest (h : latest us key = some u) : u ∈ us ∧ u.path.parts = key := by
  have hp := List.find?_some h
  exact ⟨List.mem_reverse.1 (List.mem_of_find?_eq_some h), by simpa using hp⟩

/-- Every unit has a last one for its path, itself or a later one. -/
theorem exists_latest (hu : u ∈ us) : ∃ v, latest us u.path.parts = some v := by
  rw [← Option.isSome_iff_exists, latest, List.find?_isSome]
  exact ⟨u, List.mem_reverse.2 hu, by simp⟩

end latest

/-- The line of a source that has the place of a unit can be read back, if it has a digest and its
path fits on a line. -/
theorem RecordedSource.legible_of_path_parts {x : RecordedSource} {u : SourceUnit}
    (hread : u.name.IsRead) (hparts : x.path.parts = u.path.parts)
    (hfeed : '\n' ∉ x.path.text.toList) {text : String} (hdigest : x.digest = Digest.ofText text) :
    x.Legible := by
  obtain ⟨n, hn, hsuffix⟩ := SourceUnit.exists_getLast?_path_parts hread
  refine ⟨hdigest ▸ Digest.ofText_ne_empty text, fun h => (Digest.mem_ofText (hdigest ▸ h)).1 rfl,
    fun h => (Digest.mem_ofText (hdigest ▸ h)).2 rfl, fun he => ?_, hfeed, fun hreturn => ?_⟩
  · have hnil : x.path.parts = [] := by
      rw [show x.path = ⟨""⟩ from congrArg Path.mk he]
      decide
    rw [← hparts, hnil] at hn
    cases hn
  · -- the path ends in the name of a source file
    obtain ⟨n', hn', hlast⟩ := Path.exists_getLast?_parts hreturn (by decide) (by decide)
    rw [hparts, hn] at hn'
    cases hn'
    obtain ⟨before, hbefore⟩ := hsuffix
    rw [← hbefore, List.getLast?_append] at hlast
    simp [SourceUnit.suffix] at hlast

/-- The line of a unit can be read back. -/
theorem SourceUnit.legible {u : SourceUnit} (hread : u.name.IsRead)
    (hfeed : '\n' ∉ u.path.text.toList) (text : String) :
    RecordedSource.Legible ⟨u.path, Digest.ofText text⟩ :=
  RecordedSource.legible_of_path_parts hread rfl hfeed rfl

/-- The name of the record below an output root. -/
abbrev Record.entryName : String := Record.fileName.text

/-- The record can be looked up at the top of its root. -/
theorem Record.leads_fileName : Record.fileName.Leads ([] ++ [Record.entryName]) where
  parts_eq := by decide
  endsInName := fun _ => by decide
  nul_not_mem := by decide
  length_le := by decide
  short := by decide

/-- The record lies at the top of its root, where no source unit does. -/
theorem SourceNames.ne_record {dirs : List String} {file : String} (h : SourceNames dirs file) :
    dirs ++ [file] ≠ [Record.entryName] := by
  obtain ⟨d, ds, rfl⟩ := List.exists_cons_of_ne_nil h.dirs_ne_nil
  simp

namespace Session

/-! ## The record and the root in step

`Tracks` is the invariant of a session: the record tells about every file of the root, and by its
digests it tells what is in them. `Holds` says of one unit that it is where it belongs and that the
record knows it. The first is about all locations, so it survives a write only if nothing else
changes; the second is about one location, so it survives whatever leaves that one alone. That
digests tell the texts apart is needed in one place, where a unit is taken to be there because its
digest is listed and a file is there. -/

/-- The record tells about the files below the root: whatever file is there has the text of a unit,
and the record has the digest of that text. -/
structure Tracks (pool : List SourceUnit) (base : Location) (t : Tree) (r : Record) : Prop where
  /-- the root is there -/
  reachable : t.Reachable base
  /-- the record can be read back -/
  legible : r.Legible
  /-- it lists sources -/
  names : ∀ key s, r.find? key = some s →
    ∃ dirs file, SourceNames dirs file ∧ key = (dirs ++ [file]).map .name
  /-- it lists every file, with the digest of what is in it -/
  file : ∀ names c, names ≠ [Record.entryName] → t.standing? (base ++ names) = some (.file c) →
    ∃ u ∈ pool, c = u.render.toUTF8 ∧
      (r.find? (names.map .name)).map (·.digest) = some (Digest.ofText u.render)

/-- The unit is in its place, and the record knows it. -/
def Holds (base : Location) (t : Tree) (r : Record) (u : SourceUnit) : Prop :=
  ∃ dirs file, SourceNames dirs file ∧ u.path.Leads (dirs ++ [file]) ∧
    t.standing? (base ++ dirs ++ [file]) = some (.file u.render.toUTF8) ∧
      (r.find? u.path.parts).map (·.digest) = some (Digest.ofText u.render)

variable {pool : List SourceUnit} {base : Location} {t t' : Tree} {r : Record}
  {u v : SourceUnit} {dirs : List String} {file : String}

/-- Other names below the root are another location. -/
theorem location_ne {names : List String} (h : names ≠ dirs ++ [file]) :
    base ++ names ≠ base ++ dirs ++ [file] := by
  rw [List.append_assoc]
  exact fun e => h (List.append_cancel_left e)

theorem map_name_ne {names names' : List String} (h : names ≠ names') :
    names.map Path.Part.name ≠ names'.map Path.Part.name :=
  fun e => h (List.map_injective_iff.2 (fun _ _ => Path.Part.name.inj) e)

/-- A unit stays in its place when its file and its digest do. -/
theorem Holds.of_frame {r' : Record} (h : Holds base t r v)
    (hfile : ∀ names c, v.path.parts = names.map .name →
      t.standing? (base ++ names) = some (.file c) → t'.standing? (base ++ names) = some (.file c))
    (hdigest : (r'.find? v.path.parts).map (·.digest) = (r.find? v.path.parts).map (·.digest)) :
    Holds base t' r' v := by
  obtain ⟨dirs, file, hnames, hlead, hold, hknown⟩ := h
  rw [List.append_assoc] at hold
  refine ⟨dirs, file, hnames, hlead, ?_, hdigest.trans hknown⟩
  rw [List.append_assoc]
  exact hfile _ _ hlead.parts_eq hold

/-- A unit whose recorded digest is right and whose file is there is in its place: what the file
holds is the text of some unit with the same digest. -/
theorem Tracks.holds (h : Tracks pool base t r) (hpool : Emittable pool) (hu : u ∈ pool)
    (hdigest : (r.find? u.path.parts).map (·.digest) = some (Digest.ofText u.render))
    (hfile : t.isFile (.below (some base)) u.path = true) : Holds base t r u := by
  obtain ⟨s, hs, -⟩ := Option.map_eq_some_iff.1 hdigest
  obtain ⟨dirs, file, hnames, hp⟩ := h.names _ s hs
  obtain ⟨hlead, c, hc⟩ := Tree.isFile_eq_true rfl rfl hp hfile
  refine ⟨dirs, file, hnames, hlead, ?_, hdigest⟩
  -- the file has the text of some unit with the recorded digest
  obtain ⟨v, hv, rfl, hrecorded⟩ := h.file _ c hnames.ne_record (List.append_assoc _ _ _ ▸ hc)
  rw [← hp, hdigest] at hrecorded
  rw [hc, hpool.render_eq u hu v hv (Option.some.inj hrecorded)]

section save

variable (hp : u.path.parts = (dirs ++ [file]).map .name)
  (hsave : t.saveText (.below (some base)) u.path u.render = (.ok (), t'))

include hp hsave

/-- Writing a unit keeps record and root in step. -/
theorem Tracks.save (h : Tracks pool base t r) (hpool : Emittable pool) (hu : u ∈ pool)
    (hnames : SourceNames dirs file) :
    Tracks pool base t' (r.note u.path (Digest.ofText u.render)) where
  reachable := (Tree.saveText_keeps rfl rfl hp hsave).reachable h.reachable
  legible := h.legible.note (u.legible (hpool.read u hu) (hpool.feed_not_mem u hu) _)
  names := by
    intro key s hs
    rcases Record.note_cases hs with hs | ⟨hkey, -⟩
    · exact h.names key s hs
    · exact ⟨dirs, file, hnames, hkey.trans hp⟩
  file := by
    intro names c hrecord hc
    by_cases hn : names = dirs ++ [file]
    · rw [hn, ← List.append_assoc, Tree.saveText_file rfl rfl hp hsave] at hc
      refine ⟨u, hu, by cases hc; rfl, ?_⟩
      rw [Record.digest_note, hn, if_pos hp.symm]
    · rw [Tree.saveText_file_iff rfl rfl hp hsave (location_ne hn)] at hc
      rw [Record.digest_note, if_neg (hp ▸ map_name_ne hn)]
      exact h.file names c hrecord hc

/-- Writing a unit puts it in its place. -/
theorem holds_of_save (hnames : SourceNames dirs file) :
    Holds base t' (r.note u.path (Digest.ofText u.render)) u := by
  obtain ⟨hlead, -⟩ := Tree.saveText_ok rfl rfl hp hsave
  refine ⟨dirs, file, hnames, hlead, Tree.saveText_file rfl rfl hp hsave, ?_⟩
  rw [Record.digest_note, if_pos rfl]

/-- Writing a unit leaves the units with other paths in theirs. -/
theorem Holds.save (h : Holds base t r v) (hne : v.path.parts ≠ u.path.parts) :
    Holds base t' (r.note u.path (Digest.ofText u.render)) v := by
  refine h.of_frame (fun names c hv hc => ?_) (by rw [Record.digest_note, if_neg hne])
  have hn : names ≠ dirs ++ [file] := fun e => hne (by rw [hv, hp, e])
  exact (Tree.saveText_file_iff rfl rfl hp hsave (location_ne hn)).2 hc

end save

section record

variable {text : String}
  (hsave : t.saveText (.below (some base)) Record.fileName text = (.ok (), t'))

include hsave

/-- The record was written to its file. -/
theorem standing?_record_of_save :
    t'.standing? (base ++ [Record.entryName]) = some (.file text.toUTF8) := by
  have := Tree.saveText_file rfl rfl Record.leads_fileName.parts_eq hsave
  rwa [List.append_nil] at this

/-- Writing the record keeps directories. -/
theorem keeps_of_save_record : t.Keeps t' :=
  Tree.saveText_keeps rfl rfl Record.leads_fileName.parts_eq hsave

/-- It leaves all other files alone. -/
theorem file_iff_of_save_record {names : List String} (hn : names ≠ [Record.entryName])
    {c : ByteArray} :
    t'.standing? (base ++ names) = some (.file c) ↔ t.standing? (base ++ names) = some (.file c) :=
  Tree.saveText_file_iff rfl rfl Record.leads_fileName.parts_eq hsave
    (location_ne hn)

/-- Writing the record keeps it in step with the root. -/
theorem Tracks.saveRecord (h : Tracks pool base t r) : Tracks pool base t' r where
  reachable := (keeps_of_save_record hsave).reachable h.reachable
  legible := h.legible
  names := h.names
  file := fun names c hn hc => h.file names c hn ((file_iff_of_save_record hsave hn).1 hc)

/-- Units stay in their places when the record is written. -/
theorem Holds.saveRecord (h : Holds base t r v) : Holds base t' r v := by
  have ⟨dirs, file, hnames, hlead, _⟩ := h
  refine h.of_frame (fun names c hv hc => (file_iff_of_save_record hsave fun e => ?_).2 hc) rfl
  refine map_name_ne hnames.ne_record ?_
  rw [← hlead.parts_eq, hv, e]

end record

/-! ## Writing

A write has three outcomes, and each is described by the state and the tree it leaves. `Midway` says
where a session stands between two writes, compared with where it began: the invariant holds, and
the units so far are in their places unless a later one has taken the path. One write keeps it up,
and then a list of writes does, by induction on the list. -/

/-- A write finds the unit up to date, or saves it, or fails to. -/
theorem write_cases (disk : Disk) {s : Session} (t : Tree) (u : SourceUnit)
    (hb : s.base = some base) :
    (s.record.digest? u.path = some (Digest.ofText u.render) ∧
        t.isFile (.below (some base)) u.path = true ∧
        (write disk s t u).result = .ok () ∧
        (write disk s t u).state =
          ({ s with attempted := s.attempted ++ [u.path.parts]
                    unchanged := s.unchanged ++ [u.path] }, t)) ∨
      (∃ t', disk.save t (some base) u.path u.render = (.ok (), t') ∧
        (write disk s t u).result = .ok () ∧
        (write disk s t u).state =
          ({ s with attempted := s.attempted ++ [u.path.parts]
                    record := s.record.note u.path (Digest.ofText u.render)
                    written := s.written ++ [u.path] }, t')) ∨
      ∃ e t', disk.save t (some base) u.path u.render = (.error e, t') ∧
        (write disk s t u).result = .error e ∧
        (write disk s t u).state =
          ({ s with attempted := s.attempted ++ [u.path.parts]
                    record := s.record.forget u.path }, t') := by
  simp only [write, isCurrent, hb]
  split
  · rename_i hcur
    obtain ⟨hdigest, hfile⟩ := Bool.and_eq_true_iff.1 hcur
    exact Or.inl ⟨beq_iff_eq.1 hdigest, hfile, rfl, rfl⟩
  · right
    split
    · rename_i e t' hsave
      exact Or.inr ⟨e, t', hsave, rfl, rfl⟩
    · rename_i t' hsave
      exact Or.inl ⟨t', hsave, rfl, rfl⟩

/-- A write that meets no fault finds the unit up to date or saves it. -/
theorem write_ok {s : Session} (hb : s.base = some base)
    (hw : (write .sound s t u).result = .ok ()) :
    (s.record.digest? u.path = some (Digest.ofText u.render) ∧
        t.isFile (.below (some base)) u.path = true ∧
        (write .sound s t u).state =
          ({ s with attempted := s.attempted ++ [u.path.parts]
                    unchanged := s.unchanged ++ [u.path] }, t)) ∨
      ∃ t', t.saveText (.below (some base)) u.path u.render = (.ok (), t') ∧
        (write .sound s t u).state =
          ({ s with attempted := s.attempted ++ [u.path.parts]
                    record := s.record.note u.path (Digest.ofText u.render)
                    written := s.written ++ [u.path] }, t') := by
  rcases write_cases .sound t u hb with
    ⟨hdigest, hfile, -, hst⟩ | ⟨t', hsave, -, hst⟩ | ⟨e, t', -, hresult, -⟩
  · exact Or.inl ⟨hdigest, hfile, hst⟩
  · exact Or.inr ⟨t', by simpa only [Disk.sound] using hsave, hst⟩
  · rw [hresult] at hw
    cases hw

/-- Where a session stands after it was given the units, all of which it took. -/
structure Midway (pool : List SourceUnit) (base : Location) (init : Session × Tree)
    (done : List SourceUnit) (st : Session × Tree) : Prop where
  /-- the root is where it was -/
  base_eq : st.1.base = some base
  /-- the session remembers what the record listed when it began -/
  previous_eq : st.1.previous = init.1.previous
  /-- and what it was asked for -/
  attempted_eq : st.1.attempted = done.map (·.path.parts)
  /-- the directories are still there -/
  keeps : init.2.Keeps st.2
  /-- record and root are in step -/
  tracks : Tracks pool base st.2 st.1.record
  /-- the record lists nothing else than what it listed before and what was asked for -/
  known : ∀ key s, st.1.record.find? key = some s →
    (∃ p ∈ init.1.previous, p.parts = key) ∨ ∃ u ∈ done, u.path.parts = key
  /-- the units have paths that can be looked up -/
  leads : ∀ u ∈ done, ∃ dirs file, SourceNames dirs file ∧ u.path.Leads (dirs ++ [file])
  /-- the last unit for each path is in its place -/
  holds : ∀ key u, latest done key = some u → Holds base st.2 st.1.record u

/-- Every write keeps this up. -/
theorem Midway.write {init : Session × Tree} {done : List SourceUnit} {s : Session}
    (h : Midway pool base init done (s, t)) (hpool : Emittable pool) (hu : u ∈ pool)
    (hw : (Session.write .sound s t u).result = .ok ()) :
    Midway pool base init (done ++ [u]) (Session.write .sound s t u).state := by
  have hattempted : s.attempted ++ [u.path.parts] = (done ++ [u]).map (·.path.parts) := by
    rw [List.map_append, ← h.attempted_eq]
    rfl
  have hknown : ∀ key, ((∃ p ∈ init.1.previous, p.parts = key) ∨ ∃ v ∈ done, v.path.parts = key) →
      (∃ p ∈ init.1.previous, p.parts = key) ∨ ∃ v ∈ done ++ [u], v.path.parts = key := by
    rintro key (hp | ⟨v, hv, hkey⟩)
    · exact Or.inl hp
    · exact Or.inr ⟨v, List.mem_append_left _ hv, hkey⟩
  have hleads : ∀ {r : Record} {t : Tree}, Holds base t r u → ∀ v ∈ done ++ [u],
      ∃ dirs file, SourceNames dirs file ∧ v.path.Leads (dirs ++ [file]) := by
    rintro r t ⟨dirs, file, hnames, hlead, -⟩ v hv
    rcases List.mem_append.1 hv with hv | hv
    · exact h.leads v hv
    · obtain rfl := List.mem_singleton.1 hv
      exact ⟨dirs, file, hnames, hlead⟩
  rcases write_ok h.base_eq hw with ⟨hdigest, hfile, hst⟩ | ⟨t', hsave, hst⟩
  · -- the skip: the digest shows that the text is the right one
    have hholds := h.tracks.holds hpool hu hdigest hfile
    rw [hst]
    refine ⟨h.base_eq, h.previous_eq, hattempted, h.keeps, h.tracks,
      fun key s hs => hknown key (h.known key s hs), hleads hholds, fun key v hv => ?_⟩
    rw [latest_concat] at hv
    split at hv
    · cases hv
      exact hholds
    · exact h.holds key v hv
  · rw [hst]
    -- a path with a leading slash is refused, so the unit was saved under names
    rcases SourceUnit.path_parts (hpool.read u hu) with ⟨rest, hroot⟩ | ⟨dirs, file, hnames, hp⟩
    · exact absurd hsave (Tree.saveText_root rfl hroot _)
    · have hholds := holds_of_save (r := s.record) hp hsave hnames
      refine ⟨h.base_eq, h.previous_eq, hattempted,
        h.keeps.trans (Tree.saveText_keeps rfl rfl hp hsave),
        h.tracks.save hp hsave hpool hu hnames, fun key x hx => ?_, hleads hholds,
        fun key v hv => ?_⟩
      · rcases Record.note_cases hx with hx | ⟨hkey, -⟩
        · exact hknown key (h.known key x hx)
        · exact Or.inr ⟨u, by simp, hkey.symm⟩
      · rw [latest_concat] at hv
        split at hv
        · cases hv
          exact hholds
        · rename_i hne
          refine (h.holds key v hv).save hp hsave ?_
          rw [(mem_of_latest hv).2]
          exact fun e => hne e.symm

/-- Writing many units keeps it up, if all of them go well. -/
theorem Midway.writeAll {init st : Session × Tree} {done us : List SourceUnit}
    (h : Midway pool base init done st) (hpool : Emittable pool) (hus : us ⊆ pool)
    (hw : ((sink .sound).writeAll st us).isComplete = true) :
    Midway pool base init (done ++ us) ((sink .sound).writeAll st us).state := by
  induction us generalizing done st with
  | nil => rwa [List.append_nil]
  | cons u us ih =>
    obtain ⟨hfirst, hrest⟩ := (Sink.isComplete_writeAll_cons (sink .sound)).1 hw
    obtain ⟨s, t⟩ := st
    have hnext := h.write hpool (hus List.mem_cons_self) hfirst
    have := ih hnext (fun v hv => hus (List.mem_cons_of_mem _ hv)) hrest
    rwa [List.append_assoc] at this

/-! ## Ending

The end of a session removes what the record listed before and nobody asked for this time, and then
it writes the record. Removing is told by `Cleared`, which speaks of files and of the record by
their keys and of nothing else, so that it can be used whatever was going on before. The root is
`Settled` afterwards: the units that were last for their paths are there, and the record lists these
and no others. -/

/-- A removal leaves nothing at its location, whether it found the file or not. -/
theorem standing?_of_delete {p : Path} {res : Except Fault Unit} (hr : t.Reachable base)
    (hp : p.parts = (dirs ++ [file]).map .name)
    (h : t.removeFile (.below (some base)) p = (res, t'))
    (hres : res = .ok () ∨ res = .error .notFound) :
    t.Keeps t' ∧ ∀ loc, t'.standing? loc =
      if loc = base ++ dirs ++ [file] then none else t.standing? loc := by
  rcases hres with rfl | rfl
  · -- there was a file, so no directory goes
    obtain ⟨⟨c, hfile⟩, hall⟩ := Tree.removeFile_ok rfl hp h
    refine ⟨fun loc hd => ?_, hall⟩
    have hloc : loc ≠ base ++ dirs ++ [file] := by
      rintro rfl
      rw [hfile] at hd
      cases hd
    rw [hall, if_neg hloc, hd]
  · obtain ⟨rfl, hnone⟩ := Tree.removeFile_notFound rfl rfl hr hp h
    refine ⟨.refl _, fun loc => ?_⟩
    by_cases hloc : loc = base ++ dirs ++ [file]
    · rw [if_pos hloc, hloc, hnone]
    · rw [if_neg hloc]

/-- Discarding a list is removing its head and discarding the rest, unless the removal fails. -/
theorem discard_cases (disk : Disk) (s : Session) (t : Tree) (p : Path) (rest : List Path) :
    ∃ res t', disk.delete t s.base p = (res, t') ∧
      (((res = .ok () ∨ res = .error .notFound) ∧
          ∃ dropped : Session, dropped.base = s.base ∧ dropped.record = s.record.forget p ∧
            (discard disk s t (p :: rest)).result = (discard disk dropped t' rest).result ∧
            (discard disk s t (p :: rest)).state = (discard disk dropped t' rest).state) ∨
        ∃ e, (discard disk s t (p :: rest)).result = .error e ∧
          (discard disk s t (p :: rest)).state = (s, t')) := by
  let dropped := { s with record := s.record.forget p, removed := s.removed ++ [p] }
  rw [discard]
  rcases disk.delete t s.base p with ⟨e | ⟨⟨⟩⟩, t'⟩
  · cases e with
    | notFound => exact ⟨_, t', rfl, Or.inl ⟨Or.inr rfl, dropped, rfl, rfl, rfl, rfl⟩⟩
    | _ => exact ⟨_, t', rfl, Or.inr ⟨_, rfl, rfl⟩⟩
  · exact ⟨_, t', rfl, Or.inl ⟨Or.inl rfl, dropped, rfl, rfl, rfl, rfl⟩⟩

/-- What discarding sources does if it ends well. -/
structure Cleared (base : Location) (keys : List (List Path.Part)) (st st' : Session × Tree) :
    Prop where
  /-- directories stay -/
  keeps : st.2.Keeps st'.2
  /-- the sources are not listed any more, and the others still are -/
  record : ∀ key, st'.1.record.find? key = if key ∈ keys then none else st.1.record.find? key
  /-- their files are gone, and the others stay -/
  file : ∀ names : List String, st'.2.content? (base ++ names) =
    if names.map .name ∈ keys then none else st.2.content? (base ++ names)
  /-- files outside the root stay -/
  outside : ∀ loc, ¬base <+: loc → st'.2.content? loc = st.2.content? loc
  /-- the record can be read back if it could be before -/
  legible : st.1.record.Legible → st'.1.record.Legible

/-- When a file is removed the other files stay. -/
theorem content?_of_removed {p : Path} {dirs : List String} {file : String}
    (hp : p.parts = (dirs ++ [file]).map .name)
    (hall : ∀ loc, t'.standing? loc =
      if loc = base ++ dirs ++ [file] then none else t.standing? loc) (names : List String) :
    t'.content? (base ++ names) =
      if names.map .name = p.parts then none else t.content? (base ++ names) := by
  refine Option.ext fun c => ?_
  rw [Tree.content?_eq_some_iff, hall]
  by_cases hn : names = dirs ++ [file]
  · rw [hn, if_pos (List.append_assoc ..).symm, if_pos hp.symm]
    simp
  · rw [if_neg (location_ne hn), if_neg (hp ▸ map_name_ne hn), Tree.content?_eq_some_iff]

/-- Discarding clears the sources if it ends well. By induction on their list: a source is gone
whether the file was there or not. -/
theorem cleared_discard {disk : Disk} {s : Session} {ps : List Path} (hdisk : disk.Candid)
    (hb : s.base = some base) (hr : t.Reachable base)
    (hps : ∀ p ∈ ps, ∃ dirs file, p.parts = (dirs ++ [file]).map .name)
    (hok : (discard disk s t ps).result = .ok ()) :
    Cleared base (ps.map (·.parts)) (s, t) (discard disk s t ps).state := by
  induction ps generalizing s t with
  | nil => exact ⟨.refl t, fun _ => rfl, fun _ => rfl, fun _ _ => rfl, id⟩
  | cons p rest ih =>
    obtain ⟨dirs, file, hp⟩ := hps p List.mem_cons_self
    obtain ⟨res, t', hdelete, ⟨hres, dropped, hbase, hrecord, hresult, hstate⟩ | ⟨e, hresult, -⟩⟩ :=
      discard_cases disk s t p rest
    · rw [hb] at hdelete
      have hremove : t.removeFile (.below (some base)) p = (res, t') := by
        rcases hres with rfl | rfl
        · exact hdisk.delete_ok hdelete
        · exact hdisk.delete_notFound hdelete
      obtain ⟨hkeeps, hall⟩ := standing?_of_delete hr hp hremove hres
      have hrest := ih (hbase.trans hb) (hkeeps.reachable hr)
        (fun q hq => hps q (List.mem_cons_of_mem _ hq)) (hresult ▸ hok)
      rw [hstate]
      constructor
      case keeps => exact hkeeps.trans hrest.keeps
      case record =>
        intro key
        rw [hrest.record, hrecord, Record.find?_forget]
        by_cases hkey : key = p.parts <;> simp [hkey]
      case file =>
        intro names
        rw [hrest.file, content?_of_removed hp hall]
        by_cases hkey : names.map .name = p.parts <;> simp [hkey]
      case outside =>
        intro loc hloc
        have hne : loc ≠ base ++ dirs ++ [file] := by
          rintro rfl
          exact hloc ⟨dirs ++ [file], (List.append_assoc ..).symm⟩
        refine (hrest.outside loc hloc).trans (Option.ext fun c => ?_)
        rw [Tree.content?_eq_some_iff, Tree.content?_eq_some_iff, hall, if_neg hne]
      case legible => exact fun h => hrest.legible (hrecord ▸ h.forget p)
    · rw [hresult] at hok
      cases hok

/-- Record and root stay in step. -/
theorem Cleared.tracks {keys : List (List Path.Part)} {st st' : Session × Tree}
    (h : Cleared base keys st st') (ht : Tracks pool base st.2 st.1.record) :
    Tracks pool base st'.2 st'.1.record where
  reachable := h.keeps.reachable ht.reachable
  legible := h.legible ht.legible
  names := by
    intro key x hx
    rw [h.record] at hx
    split at hx
    · cases hx
    · exact ht.names key x hx
  file := by
    intro names c hrecord hc
    rw [← Tree.content?_eq_some_iff, h.file] at hc
    split at hc
    · cases hc
    · rename_i hkey
      rw [h.record, if_neg hkey]
      exact ht.file names c hrecord (Tree.content?_eq_some_iff.1 hc)

/-- Units with other paths stay in their places. -/
theorem Cleared.holds {keys : List (List Path.Part)} {st st' : Session × Tree}
    (h : Cleared base keys st st') (hu : u.path.parts ∉ keys)
    (hold : Holds base st.2 st.1.record u) : Holds base st'.2 st'.1.record u := by
  refine hold.of_frame (fun names c hv hc => ?_) (by rw [h.record, if_neg hu])
  rw [← Tree.content?_eq_some_iff, h.file, if_neg (hv ▸ hu), Tree.content?_eq_some_iff, hc]

/-- The end of a session discards what is stale, and then saves the record. -/
theorem finish_cases (disk : Disk) (s : Session) (t : Tree) :
    (∃ e, (discard disk s t s.stale).result = .error e ∧ (finish disk s t).result = .error e ∧
        (finish disk s t).state.2 = (discard disk s t s.stale).state.2) ∨
      (discard disk s t s.stale).result = .ok () ∧
        disk.save (discard disk s t s.stale).state.2 s.base Record.fileName
          (discard disk s t s.stale).state.1.record.write =
            ((finish disk s t).result, (finish disk s t).state.2) := by
  rw [finish]
  rcases discard disk s t s.stale with ⟨st, e | ⟨⟨⟩⟩, events⟩
  · exact Or.inl ⟨e, rfl, rfl, rfl⟩
  · exact Or.inr ⟨rfl, rfl⟩

/-- The root after a session that met no fault: each unit that was last for its path is in its
place, and nothing else is. -/
structure Settled (pool : List SourceUnit) (base : Location) (us : List SourceUnit) (t : Tree)
    (r : Record) : Prop where
  /-- record and root are in step -/
  tracks : Tracks pool base t r
  /-- the record was written -/
  recorded : t.standing? (base ++ [Record.entryName]) = some (.file r.write.toUTF8)
  /-- it lists the units only -/
  known : ∀ key s, r.find? key = some s → ∃ u ∈ us, u.path.parts = key
  /-- the paths of the units can be looked up -/
  leads : ∀ u ∈ us, ∃ dirs file, SourceNames dirs file ∧ u.path.Leads (dirs ++ [file])
  /-- the last unit for each path is in its place -/
  holds : ∀ key u, latest us key = some u → Holds base t r u

/-- A session that ends without a fault leaves its root settled. -/
theorem Midway.finish {init : Session × Tree} {us : List SourceUnit} {s : Session}
    (h : Midway pool base init us (s, t))
    (hprevious : ∀ p ∈ init.1.previous,
      ∃ dirs file, SourceNames dirs file ∧ p.parts = (dirs ++ [file]).map .name)
    (hw : (Session.finish .sound s t).result = .ok ()) :
    init.2.Keeps (Session.finish .sound s t).state.2 ∧
      ∃ r, Settled pool base us (Session.finish .sound s t).state.2 r := by
  have hstale : ∀ p ∈ s.stale,
      ∃ dirs file, SourceNames dirs file ∧ p.parts = (dirs ++ [file]).map .name := by
    intro p hp
    exact hprevious p (h.previous_eq ▸ (List.mem_filter.1 hp).1)
  have hasked : ∀ u ∈ us, u.path.parts ∉ s.stale.map (·.parts) := by
    intro u hu hmem
    obtain ⟨p, hp, hkey⟩ := List.mem_map.1 hmem
    have hnot : p.parts ∉ s.attempted := by simpa using (List.mem_filter.1 hp).2
    exact hnot (h.attempted_eq ▸ List.mem_map.2 ⟨u, hu, hkey.symm⟩)
  rcases finish_cases .sound s t with ⟨e, -, herror, -⟩ | ⟨hdiscard, hsave⟩
  · rw [herror] at hw
    cases hw
  · have hb : s.base = some base := h.base_eq
    have hcleared := cleared_discard Disk.sound_candid hb h.tracks.reachable
      (fun p hp => (hstale p hp).imp fun _ => Exists.imp fun _ => And.right) hdiscard
    rw [hw, hb] at hsave
    have hsaved := Disk.sound_honest.save_ok hsave
    refine ⟨(h.keeps.trans hcleared.keeps).trans (keeps_of_save_record hsaved), _,
      (hcleared.tracks h.tracks).saveRecord hsaved, standing?_record_of_save hsaved,
      fun key x hx => ?_, h.leads, fun key u hu => ?_⟩
    · rw [hcleared.record] at hx
      split at hx
      · cases hx
      rename_i hkey
      rcases h.known key x hx with ⟨p, hp, hpkey⟩ | hu
      · -- what was listed before and not asked for is stale
        by_contra hnone
        refine hkey (List.mem_map.2 ⟨p, List.mem_filter.2 ⟨h.previous_eq ▸ hp, ?_⟩, hpkey⟩)
        rw [decide_eq_true_iff, h.attempted_eq, List.mem_map]
        rintro ⟨u, hu, hukey⟩
        exact hnone ⟨u, hu, hukey.trans hpkey⟩
      · exact hu
    · exact (hcleared.holds (hasked u (mem_of_latest hu).1) (h.holds key u hu)).saveRecord hsaved

end Session

end PlatformWiring
