import PlatformWiring.Proofs.Output.Session

/-!
# Rounds on an output root

Any number of rounds on one root leave the files that the last of them would leave in an
empty root. The first half of the module follows the rounds: a root that is opened again is
found where it was, and each round leaves it settled. The second half follows a round in an
empty root, which cannot fail if its paths can be looked up, since only files have a full
stop in their names.
-/

namespace PlatformWiring

namespace Record

/-- What the record says about each source: the parts of its path, and the digest. -/
def listing (r : Record) : List (List Path.Part × String) :=
  r.values.map fun s => (s.path.parts, s.digest)

/-- The listing goes along the entries. -/
theorem Keyed.listing_eq {r : Record} (h : r.Keyed) :
    r.listing = r.entries.map fun e => (e.1, e.2.digest) := by
  rw [listing, OrderedMap.values, List.map_map]
  refine List.map_congr_left fun e he => ?_
  rw [Function.comp_apply, h e.1 e.2 (OrderedMap.mem_entries_iff.1 he)]

/-- A line is listed exactly if the record has that digest for that path. -/
theorem Keyed.mem_listing_iff {r : Record} (h : r.Keyed) {key : List Path.Part}
    {digest : String} : (key, digest) ∈ r.listing ↔ (r.find? key).map (·.digest) = some digest := by
  rw [h.listing_eq, List.mem_map, Option.map_eq_some_iff]
  constructor
  · rintro ⟨⟨key', s⟩, he, heq⟩
    cases heq
    exact ⟨s, OrderedMap.mem_entries_iff.1 he, rfl⟩
  · rintro ⟨s, hs, rfl⟩
    exact ⟨(key, s), OrderedMap.mem_entries_iff.2 hs, rfl⟩

/-- No path is listed twice. -/
theorem Keyed.nodup_listing {r : Record} (h : r.Keyed) : (r.listing.map Prod.fst).Nodup := by
  rw [h.listing_eq, List.map_map]
  exact r.nodup_keys

/-- Records that know the same digests have the same lines, up to their order. -/
theorem Keyed.listing_perm {r r' : Record} (h : r.Keyed) (h' : r'.Keyed)
    (hsame : ∀ key, (r.find? key).map (·.digest) = (r'.find? key).map (·.digest)) :
    r.listing.Perm r'.listing := by
  rw [List.perm_ext_iff_of_nodup h.nodup_listing.of_map h'.nodup_listing.of_map]
  rintro ⟨key, digest⟩
  rw [h.mem_listing_iff, h'.mem_listing_iff, hsame]

end Record

namespace Session

/-- A round on an output root: it is opened, it is given the units, and the session ends. Nothing
if there is a fault on the way. -/
def round? (here : Location) (root : Path) (t : Tree) (us : List SourceUnit) : Option Tree :=
  match start here t root with
  | (.error _, _) => none
  | (.ok s, t₀) =>
    let w := (sink .sound).writeAll (s, t₀) us
    if w.isComplete then
      match finish .sound w.state.1 w.state.2 with
      | ⟨(_, t'), .ok (), _⟩ => some t'
      | ⟨_, .error _, _⟩ => none
    else none

/-- Rounds on an output root, one after the other. -/
def rounds? (here : Location) (root : Path) : Tree → List (List SourceUnit) → Option Tree :=
  List.foldlM (round? here root)

/-- Opening the root turns the tree into `t₀`, and finds the root at `base`. -/
def Opens (here : Location) (root : Path) (t t₀ : Tree) (base : Location) : Prop :=
  ∃ s, start here t root = (.ok s, t₀) ∧ s.base = some base

variable {pool : List SourceUnit} {here base : Location} {root : Path} {t t₀ t' : Tree}
  {r : Record} {us : List SourceUnit}

/-- A round that goes well opens the root, writes all units, and ends the session, each without a
fault. -/
theorem round?_eq_some_iff : round? here root t us = some t' ↔
    ∃ s t₀, start here t root = (.ok s, t₀) ∧
      ((sink .sound).writeAll (s, t₀) us).isComplete = true ∧
      (finish .sound ((sink .sound).writeAll (s, t₀) us).state.1
        ((sink .sound).writeAll (s, t₀) us).state.2).result = .ok () ∧
      (finish .sound ((sink .sound).writeAll (s, t₀) us).state.1
        ((sink .sound).writeAll (s, t₀) us).state.2).state.2 = t' := by
  rw [round?]
  rcases start here t root with ⟨e | s, t₀⟩
  · simp
  · simp only [Prod.mk.injEq, Except.ok.injEq, ↓existsAndEq, true_and]
    by_cases hcomplete : ((sink .sound).writeAll (s, t₀) us).isComplete = true
    · simp only [hcomplete, if_true, true_and]
      rcases finish .sound ((sink .sound).writeAll (s, t₀) us).state.1
        ((sink .sound).writeAll (s, t₀) us).state.2 with ⟨⟨s', t''⟩, e | ⟨⟨⟩⟩, events⟩
      · simp
      · simp
    · simp [hcomplete]

/-! ## Opening

A round begins by making its root and reading the record there. If the root is there already it is
found where it was, whatever its path looks like, so rounds on one root are rounds at one location.
A root without a record file has the empty record. -/

/-- What a session begins with: the root that was located, and the record that was read there. -/
theorem start_ok {s : Session} (h : start here t root = (.ok s, t₀)) :
    ∃ base r, t₀.locateDirectory (.working here) root = .ok base ∧
      loadRecord t₀ base = .ok r ∧ s = fresh root base r := by
  rw [start] at h
  rcases hmake : t.makeDirectories (.working here) root with ⟨e | ⟨⟨⟩⟩, t₁⟩ <;> rw [hmake] at h
  · cases h
  · simp only at h
    rcases hl : t₁.locateDirectory (.working here) root with e | base
    · rw [hl] at h
      cases h
    · rw [hl] at h
      obtain ⟨hs, rfl⟩ := Prod.mk.inj h
      rcases hr : loadRecord t₁ base with e | r
      · rw [hr] at hs
        cases hs
      · rw [hr] at hs
        cases hs
        exact ⟨base, r, hl, hr, rfl⟩

/-- Opening a root that is there changes nothing. -/
theorem start_of_locateDirectory (h : t.locateDirectory (.working here) root = .ok base) :
    start here t root = ((loadRecord t base).map (fresh root base), t) := by
  rw [start, Tree.makeDirectories_of_locateDirectory rfl rfl h]
  simp only [h]

theorem Opens.locateDirectory (h : Opens here root t t₀ base) :
    t₀.locateDirectory (.working here) root = .ok base := by
  obtain ⟨s, hs, hb⟩ := h
  obtain ⟨base', r, hl, -, rfl⟩ := start_ok hs
  cases hb
  exact hl

theorem Opens.reachable (h : Opens here root t t₀ base) : t₀.Reachable base :=
  Tree.reachable_of_locateDirectory rfl h.locateDirectory

/-- A round opens its root first, so it may find it opened already. -/
theorem Opens.round?_eq (h : Opens here root t t₀ base) (us : List SourceUnit) :
    round? here root t us = round? here root t₀ us := by
  obtain ⟨s, hs, hb⟩ := h
  obtain ⟨base', r, hl, hr, rfl⟩ := start_ok hs
  rw [round?, round?, hs, start_of_locateDirectory hl, hr]
  rfl

/-- A root without files has no record. -/
theorem Opens.loadRecord_eq (h : Opens here root t t₀ base)
    (hnone : ∀ c, t₀.standing? (base ++ [Record.entryName]) ≠ some (.file c)) :
    loadRecord t₀ base = .ok ∅ := by
  obtain ⟨s, hs, hb⟩ := h
  obtain ⟨base', r, -, hr, rfl⟩ := start_ok hs
  obtain rfl : base' = base := Option.some.inj hb
  rw [loadRecord] at hr ⊢
  rcases hread : t₀.readText (.below (some base')) Record.fileName with e | text
  · rw [hread] at hr
    cases e with
    | notFound => rfl
    | _ => cases hr
  · obtain ⟨-, c, hc⟩ := Tree.isFile_eq_true rfl rfl Record.leads_fileName.parts_eq
      (Tree.isFile_of_readText hread)
    rw [List.append_nil] at hc
    exact absurd hc (hnone c)

/-- The record is read from its file. -/
theorem loadRecord_of_standing? {text : String} (hr : t.Reachable base)
    (h : t.standing? (base ++ [Record.entryName]) = some (.file text.toUTF8)) :
    loadRecord t base = .ok (Record.read text) := by
  have hread : t.readText (.below (some base)) Record.fileName = .ok text :=
    Tree.readText_of_standing? rfl rfl Record.leads_fileName (by decide)
      (by rw [List.append_nil]; exact h) (by rw [List.append_nil]; exact hr)
  simp only [loadRecord, hread]

/-! ## Rounds in a row

What a round leaves is what the next one begins with. `Settled` gives the invariant and a record
file that is read back as it was written, so the rounds follow each other by induction, and only the
units of the last one matter in the end. -/

/-- A root without files is in step with the empty record. -/
theorem tracks_empty (hr : t.Reachable base)
    (hnone : ∀ names c, t.standing? (base ++ names) ≠ some (.file c)) : Tracks pool base t ∅ where
  reachable := hr
  legible := Record.legible_empty
  names := fun _ _ h => by cases h
  file := fun names c _ h => absurd h (hnone names c)

/-- What the record lists are paths of sources. -/
theorem Tracks.path_parts (h : Tracks pool base t r) {p : Path} (hp : p ∈ r.paths) :
    ∃ dirs file, SourceNames dirs file ∧ p.parts = (dirs ++ [file]).map .name := by
  obtain ⟨key, s, hkey, rfl⟩ := Record.mem_paths_iff.1 hp
  obtain ⟨dirs, file, hnames, he⟩ := h.names key s hkey
  exact ⟨dirs, file, hnames, (h.legible.key_eq key s hkey).symm.trans he⟩

/-- A session that begins with record and root in step stands at its beginning. -/
theorem Tracks.midway (h : Tracks pool base t r) (root : Path) :
    Midway pool base (fresh root base r, t) [] (fresh root base r, t) where
  base_eq := rfl
  previous_eq := rfl
  attempted_eq := rfl
  keeps := .refl t
  tracks := h
  known := by
    intro key s hs
    refine Or.inl ⟨s.path, Record.mem_paths_iff.2 ⟨key, s, hs, rfl⟩, ?_⟩
    exact (h.legible.key_eq key s hs).symm
  leads := fun u hu => by cases hu
  holds := fun key u hu => by cases hu

/-- A round leaves its root settled, and at its place. -/
theorem Tracks.round (h : Tracks pool base t r) (hpool : Emittable pool) (hus : us ⊆ pool)
    (hlocate : t.locateDirectory (.working here) root = .ok base)
    (hload : loadRecord t base = .ok r) (hround : round? here root t us = some t') :
    t.Keeps t' ∧ ∃ r', Settled pool base us t' r' := by
  obtain ⟨s, t₀, hstart, hcomplete, hfinish, rfl⟩ := round?_eq_some_iff.1 hround
  rw [start_of_locateDirectory hlocate, hload] at hstart
  obtain ⟨hs, rfl⟩ := Prod.mk.inj hstart
  cases hs
  exact ((h.midway root).writeAll hpool hus hcomplete).finish
    (fun p hp => h.path_parts hp) hfinish

/-- A settled root gives back the record that was written. -/
theorem Settled.loadRecord_eq (h : Settled pool base us t r) : loadRecord t base = .ok r := by
  rw [loadRecord_of_standing? h.tracks.reachable h.recorded, Record.read_write h.tracks.legible]

/-- After any rounds that end with the units, the root is settled with them. -/
theorem Tracks.rounds (h : Tracks pool base t r) (hpool : Emittable pool)
    {before : List (List SourceUnit)} (hbefore : before.flatten ⊆ pool) (hus : us ⊆ pool)
    (hlocate : t.locateDirectory (.working here) root = .ok base)
    (hload : loadRecord t base = .ok r)
    (hrounds : rounds? here root t (before ++ [us]) = some t') :
    ∃ r', Settled pool base us t' r' := by
  induction before generalizing t r with
  | nil =>
    rw [List.nil_append, rounds?, List.foldlM_cons] at hrounds
    obtain ⟨t₁, hround, hlast⟩ := Option.bind_eq_some_iff.1 hrounds
    cases hlast
    exact (h.round hpool hus hlocate hload hround).2
  | cons first before ih =>
    rw [List.flatten_cons, List.append_subset] at hbefore
    rw [List.cons_append, rounds?, List.foldlM_cons] at hrounds
    obtain ⟨t₁, hround, hrest⟩ := Option.bind_eq_some_iff.1 hrounds
    obtain ⟨hkeeps, r₁, hsettled⟩ := h.round hpool hbefore.1 hlocate hload hround
    exact ih hsettled.tracks hbefore.2 (Tree.locateDirectory_of_keeps hkeeps rfl hlocate)
      hsettled.loadRecord_eq hrest

/-! ## What a settled root holds

Both the files and the digests are told by the last unit for each path. So two roots that are
settled with the same units agree in both, whatever happened in them before. -/

/-- Below a settled root the files other than the record are those of the last unit for each
path. -/
theorem Settled.content? (h : Settled pool base us t r) {names : List String}
    (hn : names ≠ [Record.entryName]) :
    t.content? (base ++ names) =
      (latest us (names.map .name)).map fun u => u.render.toUTF8 := by
  have hplace : ∀ u, latest us (names.map .name) = some u →
      t.standing? (base ++ names) = some (.file u.render.toUTF8) := by
    intro u hu
    obtain ⟨dirs, file, -, hlead, hfile, -⟩ := h.holds _ u hu
    have hnames : names = dirs ++ [file] := by
      by_contra hne
      exact map_name_ne hne ((mem_of_latest hu).2.symm.trans hlead.parts_eq)
    rw [hnames, ← List.append_assoc, hfile]
  apply Option.ext
  intro c
  rw [Tree.content?_eq_some_iff, Option.map_eq_some_iff]
  constructor
  · -- a file is recorded, what is recorded was asked for, and what was asked for is in its place
    intro hc
    obtain ⟨u, -, -, hdigest⟩ := h.tracks.file names c hn hc
    obtain ⟨s, hs, -⟩ := Option.map_eq_some_iff.1 hdigest
    obtain ⟨v, hv, hkey⟩ := h.known _ s hs
    obtain ⟨w, hw⟩ := exists_latest hv
    rw [hkey] at hw
    rw [hplace w hw] at hc
    exact ⟨w, hw, by cases hc; rfl⟩
  · rintro ⟨u, hu, rfl⟩
    exact hplace u hu

/-- The record of a settled root has the digest of the last unit for each path. -/
theorem Settled.digest (h : Settled pool base us t r) (key : List Path.Part) :
    (r.find? key).map (·.digest) = (latest us key).map fun u => Digest.ofText u.render := by
  rcases hu : latest us key with _ | u
  · rcases hs : r.find? key with _ | s
    · rfl
    · obtain ⟨v, hv, hkey⟩ := h.known key s hs
      obtain ⟨w, hw⟩ := exists_latest hv
      rw [hkey, hu] at hw
      cases hw
  · obtain ⟨-, -, -, -, -, hdigest⟩ := h.holds key u hu
    rwa [(mem_of_latest hu).2] at hdigest

/-! ## A round in an empty root

For the comparison the last round must also go well in an empty root. A write fails there if a file
is where a directory has to be, or the other way round. Files have a full stop in their names and
packages have none between theirs, so neither happens in a `Tidy` root, and writing to a tidy root
leaves it tidy. -/

/-- What has a full stop in its name is a file, and what has none is a directory. -/
structure Tidy (base : Location) (t : Tree) : Prop where
  /-- the root is there -/
  reachable : t.Reachable base
  /-- files have a full stop in their names -/
  file : ∀ dirs s c, t.standing? (base ++ dirs ++ [s]) = some (.file c) → '.' ∈ s.toList
  /-- directories have none -/
  directory : ∀ dirs s, t.standing? (base ++ dirs ++ [s]) = some .directory → '.' ∉ s.toList

/-- In a tidy root nothing is in the way of a file. -/
theorem Tidy.save {p : Path} {dirs : List String} {s : String} (h : Tidy base t)
    (hlead : p.Leads (dirs ++ [s])) (hslash : p.endsInSlash = false)
    (hdirs : ∀ d ∈ dirs, '.' ∉ d.toList) (hs : '.' ∈ s.toList) (text : String) :
    ∃ t', t.saveText (.below (some base)) p text = (.ok (), t') ∧ Tidy base t' := by
  -- a file on the way would have a full stop in its name
  have hfree : t.FreeWay base dirs := by
    intro pre hpre c hc
    rcases List.eq_nil_or_concat pre with rfl | ⟨init, d, rfl⟩
    · rw [List.append_nil, h.reachable.1] at hc
      cases hc
    · rw [List.concat_eq_append] at hpre hc
      rw [← List.append_assoc] at hc
      exact hdirs d (hpre.subset (by simp)) (h.file init d c hc)
  -- directories that are made on the way bear names from the way
  have hgrown : ∀ {t₁}, Tree.Grows dirs t t₁ → ∀ above name,
      t₁.standing? (base ++ above ++ [name]) = some .directory → '.' ∉ name.toList := by
    intro t₁ hgrows above name hd
    rcases hgrows (base ++ above ++ [name]) with he | ⟨-, -, above', name', hname', hloc⟩
    · exact h.directory above name (he ▸ hd)
    · obtain ⟨-, he⟩ := List.append_inj' hloc rfl
      cases he
      exact hdirs name hname'
  have hb : (Start.below (some base)).base = some base := rfl
  obtain ⟨t', hsave⟩ := Tree.saveText_total hb rfl hlead hslash h.reachable hfree
    (fun t₁ hgrows hd => hgrown hgrows dirs s hd hs) text
  refine ⟨t', hsave, (Tree.saveText_keeps rfl rfl hlead.parts_eq hsave).reachable h.reachable,
    fun above name c hc => ?_, fun above name hd => ?_⟩
  · by_cases hloc : base ++ above ++ [name] = base ++ dirs ++ [s]
    · obtain ⟨-, he⟩ := List.append_inj' hloc rfl
      cases he
      exact hs
    · exact h.file above name c ((Tree.saveText_file_iff rfl rfl hlead.parts_eq hsave hloc).1 hc)
  · obtain ⟨-, t₁, hgrows, -, -, hall⟩ := Tree.saveText_ok rfl rfl hlead.parts_eq hsave
    rw [hall] at hd
    split at hd
    · cases hd
    · exact hgrown hgrows above name hd

/-- A unit can be written to a tidy root if its path can be looked up. -/
theorem Tidy.write {s : Session} {u : SourceUnit} {dirs : List String} {file : String}
    (h : Tidy base t) (hb : s.base = some base) (hread : u.name.IsRead)
    (hnames : SourceNames dirs file) (hlead : u.path.Leads (dirs ++ [file])) :
    (Session.write .sound s t u).result = .ok () ∧
      Tidy base (Session.write .sound s t u).state.2 ∧
      (Session.write .sound s t u).state.1.base = some base ∧
      (Session.write .sound s t u).state.1.previous = s.previous := by
  obtain ⟨t', hsave, h'⟩ := h.save hlead (u.endsInSlash_path hread) hnames.stop_not_mem
    hnames.stop_mem u.render
  simp only [Session.write, Disk.sound, hb]
  split
  · exact ⟨rfl, h, rfl, rfl⟩
  · rw [hsave]
    exact ⟨rfl, h', rfl, rfl⟩

/-- So all units can be written, one after the other. -/
theorem Tidy.writeAll {st : Session × Tree} (h : Tidy base st.2) (hb : st.1.base = some base)
    (hus : ∀ u ∈ us, u.name.IsRead ∧
      ∃ dirs file, SourceNames dirs file ∧ u.path.Leads (dirs ++ [file])) :
    ((sink .sound).writeAll st us).isComplete = true ∧
      Tidy base ((sink .sound).writeAll st us).state.2 ∧
      ((sink .sound).writeAll st us).state.1.base = some base ∧
      ((sink .sound).writeAll st us).state.1.previous = st.1.previous := by
  induction us generalizing st with
  | nil => exact ⟨rfl, h, hb, rfl⟩
  | cons u us ih =>
    obtain ⟨hread, dirs, file, hnames, hlead⟩ := hus u List.mem_cons_self
    obtain ⟨hok, htidy, hbase, hprevious⟩ := h.write hb hread hnames hlead
    obtain ⟨hrest, htidy', hbase', hprevious'⟩ :=
      ih htidy hbase fun v hv => hus v (List.mem_cons_of_mem _ hv)
    exact ⟨(Sink.isComplete_writeAll_cons (sink .sound)).2 ⟨hok, hrest⟩, htidy', hbase',
      hprevious'.trans hprevious⟩

/-- A session that listed nothing before ends without a fault in a tidy root. -/
theorem Tidy.finish {s : Session} (h : Tidy base t) (hb : s.base = some base)
    (hprevious : s.previous = []) : (Session.finish .sound s t).result = .ok () := by
  have hstale : s.stale = [] := by rw [stale, hprevious, List.filter_nil]
  obtain ⟨t', hsave, -⟩ := h.save Record.leads_fileName (by decide)
    (fun d hd => by cases hd) (by decide) s.record.write
  simp only [Session.finish, hstale, discard, Disk.sound, hb, hsave]

/-- A round in an empty root goes well if the paths of its units can be looked up. -/
theorem Opens.exists_round (h : Opens here root t t₀ base)
    (hnothing : ∀ names, names ≠ [] → t₀.standing? (base ++ names) = none)
    (hus : ∀ u ∈ us, u.name.IsRead ∧
      ∃ dirs file, SourceNames dirs file ∧ u.path.Leads (dirs ++ [file])) :
    ∃ t₁, round? here root t us = some t₁ := by
  have hnone : ∀ dirs s, t₀.standing? (base ++ dirs ++ [s]) = none := fun dirs s => by
    rw [List.append_assoc]
    exact hnothing _ (by simp)
  have htidy : Tidy base t₀ := by
    refine ⟨h.reachable, fun dirs s c hc => ?_, fun dirs s hd => ?_⟩
    · rw [hnone] at hc
      cases hc
    · rw [hnone] at hd
      cases hd
  have hload := h.loadRecord_eq fun c hc => by
    rw [hnothing _ (by simp)] at hc
    cases hc
  have hstart : start here t₀ root = (.ok (fresh root base ∅), t₀) := by
    rw [start_of_locateDirectory h.locateDirectory, hload]
    rfl
  obtain ⟨hcomplete, htidy', hbase, hprevious⟩ :=
    @Tidy.writeAll base us (fresh root base ∅, t₀) htidy rfl hus
  rw [h.round?_eq]
  exact ⟨_, round?_eq_some_iff.2 ⟨_, t₀, hstart, hcomplete, htidy'.finish hbase hprevious, rfl⟩⟩

/-! ## Any rounds and a clean round

The rounds leave the root settled with the last units, and so does the round in the empty root. What
a settled root holds is then the same for both. -/

/-- **Rounds on one root leave what the last of them leaves in an empty root.** If a root without
files goes through any rounds without a fault, then the last round also goes well in any empty
root. Below both roots are the same files with the same content, and both records have the same
lines up to their order. The texts of the records may differ: a record keeps the order of earlier
rounds, and each path as it was first written. -/
theorem rounds_eq_clean_round {here here' base base' : Location} {root root' : Path}
    {t t₀ t₁ t' t₀' : Tree} {before : List (List SourceUnit)} {last : List SourceUnit}
    (hunits : Emittable (before ++ [last]).flatten)
    (hopen : Opens here root t t₀ base) (hempty : ∀ names, t₀.content? (base ++ names) = none)
    (hopen' : Opens here' root' t' t₀' base')
    (hempty' : ∀ names, names ≠ [] → t₀'.entry? (base' ++ names) = none)
    (hrounds : rounds? here root t (before ++ [last]) = some t₁) :
    ∃ t₂, round? here' root' t' last = some t₂ ∧
      (∀ names, names ≠ [Record.entryName] →
        t₁.content? (base ++ names) = t₂.content? (base' ++ names)) ∧
      ∃ r₁ r₂, t₁.content? (base ++ [Record.entryName]) = some r₁.write.toUTF8 ∧
        t₂.content? (base' ++ [Record.entryName]) = some r₂.write.toUTF8 ∧
        loadRecord t₁ base = .ok r₁ ∧ loadRecord t₂ base' = .ok r₂ ∧
        r₁.listing.Perm r₂.listing := by
  have hnone : ∀ names c, t₀.standing? (base ++ names) ≠ some (.file c) := by
    intro names c hc
    rw [← Tree.content?_eq_some_iff, hempty] at hc
    cases hc
  have hnone' : ∀ names, names ≠ [] → t₀'.standing? (base' ++ names) = none := by
    intro names hn
    rw [Tree.standing?, hempty' names hn, Option.map_none]
  have hlast : last ⊆ (before ++ [last]).flatten := by simp
  have hbefore : before.flatten ⊆ (before ++ [last]).flatten := by simp
  -- the rounds, which find the root opened
  have hrounds₀ : rounds? here root t₀ (before ++ [last]) = some t₁ := by
    obtain ⟨us, more, hlist⟩ := List.exists_cons_of_ne_nil (l := before ++ [last]) (by simp)
    rw [hlist, rounds?, List.foldlM_cons] at hrounds ⊢
    rwa [← hopen.round?_eq]
  obtain ⟨r₁, h₁⟩ := (tracks_empty hopen.reachable hnone).rounds hunits hbefore hlast
    hopen.locateDirectory (hopen.loadRecord_eq (hnone _)) hrounds₀
  -- the clean round, for which the rounds have shown that the paths can be looked up
  obtain ⟨t₂, hround⟩ := hopen'.exists_round hnone' fun u hu =>
    ⟨hunits.read u (hlast hu), h₁.leads u hu⟩
  have hnofile' : ∀ names c, t₀'.standing? (base' ++ names) ≠ some (.file c) := by
    intro names c hc
    rcases eq_or_ne names [] with rfl | hn
    · rw [List.append_nil, hopen'.reachable.1] at hc
      cases hc
    · rw [hnone' names hn] at hc
      cases hc
  obtain ⟨-, r₂, h₂⟩ := (tracks_empty hopen'.reachable hnofile').round hunits hlast
    hopen'.locateDirectory (hopen'.loadRecord_eq (hnofile' _)) (hopen'.round?_eq last ▸ hround)
  refine ⟨t₂, hround, fun names hn => by rw [h₁.content? hn, h₂.content? hn], r₁, r₂,
    Tree.content?_eq_some_iff.2 h₁.recorded, Tree.content?_eq_some_iff.2 h₂.recorded,
    h₁.loadRecord_eq, h₂.loadRecord_eq,
    h₁.tracks.legible.keyed.listing_perm h₂.tracks.legible.keyed fun key => ?_⟩
  rw [h₁.digest, h₂.digest]

/-- A component with nothing in it. -/
def emptyComponent (simple : String) : SourceUnit :=
  .blank .component ⟨"app", simple⟩ .interface

/-- A second round that skips one unit of the first and removes the other. -/
theorem two_rounds_eq_clean_round :
    ∃ t₁ t₂, rounds? [] ⟨"out"⟩ .empty
        [[emptyComponent "A", emptyComponent "B"], [emptyComponent "A"]] = some t₁ ∧
      round? [] ⟨"clean"⟩ .empty [emptyComponent "A"] = some t₂ ∧
      (∀ names, names ≠ [Record.entryName] →
        t₁.content? (["out"] ++ names) = t₂.content? (["clean"] ++ names)) ∧
      ∃ r₁ r₂, t₁.content? (["out"] ++ [Record.entryName]) = some r₁.write.toUTF8 ∧
        t₂.content? (["clean"] ++ [Record.entryName]) = some r₂.write.toUTF8 ∧
        loadRecord t₁ ["out"] = .ok r₁ ∧ loadRecord t₂ ["clean"] = .ok r₂ ∧
        r₁.listing.Perm r₂.listing := by
  have hunits : Emittable
      ([[emptyComponent "A", emptyComponent "B"]] ++ [[emptyComponent "A"]]).flatten := by
    refine ⟨fun u hu => ?_, by decide +kernel, by decide +kernel⟩
    rcases List.mem_cons.1 hu with rfl | hu
    · exact ⟨"app.A", rfl⟩
    · rcases List.mem_cons.1 hu with rfl | hu
      · exact ⟨"app.B", rfl⟩
      · obtain rfl := List.mem_singleton.1 hu
        exact ⟨"app.A", rfl⟩
  have hbare : ∀ name (names : List String), names ≠ [] →
      Tree.entry? (.entry name (.directory .empty) .empty) ([name] ++ names) = none := by
    intro name names hn
    obtain ⟨next, rest, rfl⟩ := List.exists_cons_of_ne_nil hn
    rw [List.singleton_append, Tree.entry?_cons, Tree.find?, if_pos rfl, Option.bind_some,
      Entry.at?_directory, Tree.entry?_cons]
    rfl
  have hopen : Opens [] ⟨"out"⟩ .empty (.entry "out" (.directory .empty) .empty) ["out"] :=
    ⟨fresh ⟨"out"⟩ ["out"] ∅, rfl, rfl⟩
  have hopen' : Opens [] ⟨"clean"⟩ .empty (.entry "clean" (.directory .empty) .empty) ["clean"] :=
    ⟨fresh ⟨"clean"⟩ ["clean"] ∅, rfl, rfl⟩
  have hempty : ∀ names, (Tree.entry "out" (.directory .empty) .empty).content?
      (["out"] ++ names) = none := by
    intro names
    rcases eq_or_ne names [] with rfl | hn
    · rfl
    · rw [Tree.content?, hbare "out" names hn]
  obtain ⟨t₁, hrounds⟩ := Option.isSome_iff_exists.1
    (show (rounds? [] ⟨"out"⟩ .empty ([[emptyComponent "A", emptyComponent "B"]] ++
      [[emptyComponent "A"]])).isSome = true by decide +kernel)
  obtain ⟨t₂, hall⟩ :=
    rounds_eq_clean_round hunits hopen hempty hopen' (hbare "clean") hrounds
  exact ⟨t₁, t₂, hrounds, hall⟩

end Session

end PlatformWiring
