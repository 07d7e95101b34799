import PlatformWiring.Proofs.Output.Reopening

/-!
# Attempts at writing

A session is given units one after the other. Each write may meet another disk, which may fail, and
a path may be asked for any number of times. What the session knows about a path in the end depends
on the last attempt at it only: the record has the digest of the text if that attempt went well,
and does not list the path if it failed. About paths without an attempt the record says what it
said, and their files are what they were.

Nothing is assumed here about the record that the session found, or about line feeds.
-/

namespace PlatformWiring

/-- The last of the attempts at a path. -/
def lastAttempt (as : List Attempt) (key : List Path.Part) : Option Attempt :=
  as.reverse.find? fun a => decide (a.unit.path.parts = key)

section lastAttempt

variable {as bs : List Attempt} {a : Attempt} {key : List Path.Part}

/-- Later attempts come before earlier ones. -/
theorem lastAttempt_append (as bs : List Attempt) (key : List Path.Part) :
    lastAttempt (as ++ bs) key = (lastAttempt bs key).or (lastAttempt as key) := by
  rw [lastAttempt, List.reverse_append, List.find?_append]
  rfl

/-- One more attempt is the last one at its own path. -/
theorem lastAttempt_concat (as : List Attempt) (a : Attempt) (key : List Path.Part) :
    lastAttempt (as ++ [a]) key =
      if a.unit.path.parts = key then some a else lastAttempt as key := by
  rw [lastAttempt_append]
  by_cases h : a.unit.path.parts = key
  · simp [lastAttempt, h]
  · simp [lastAttempt, h]

/-- There is none exactly if the path was not attempted. -/
theorem lastAttempt_eq_none_iff :
    lastAttempt as key = none ↔ key ∉ as.map (·.unit.path.parts) := by
  rw [lastAttempt, List.find?_eq_none]
  simp

/-- It is one of the attempts, and it was at that path. -/
theorem mem_of_lastAttempt (h : lastAttempt as key = some a) :
    a ∈ as ∧ a.unit.path.parts = key := by
  have hkey := List.find?_some h
  exact ⟨List.mem_reverse.1 (List.mem_of_find?_eq_some h), of_decide_eq_true hkey⟩

/-- If no path was attempted twice then every attempt is the last one at its path. -/
theorem lastAttempt_of_nodup (h : (as.map (·.unit.path.parts)).Nodup) (ha : a ∈ as) :
    lastAttempt as a.unit.path.parts = some a := by
  rcases hb : lastAttempt as a.unit.path.parts with _ | b
  · exact absurd (List.mem_map_of_mem ha) (lastAttempt_eq_none_iff.1 hb)
  · obtain ⟨hmem, hkey⟩ := mem_of_lastAttempt hb
    rw [List.inj_on_of_nodup_map h hmem ha hkey]

end lastAttempt

namespace Session

variable {base : Location} {t t₀ t' : Tree} {r : Record} {s : Session} {st : Session × Tree}
  {u : SourceUnit} {disk : Disk} {as before : List Attempt}

/-- The file of the unit is there. -/
def Placed (base : Location) (t : Tree) (u : SourceUnit) : Prop :=
  ∃ dirs file content, SourceNames dirs file ∧ u.path.Leads (dirs ++ [file]) ∧
    t.content? (base ++ (dirs ++ [file])) = some content

/-- It stays there if the files at the path of the unit do. -/
theorem Placed.of_frame (h : Placed base t u) (hfile : ∀ names : List String,
    u.path.parts = names.map .name → t'.content? (base ++ names) = t.content? (base ++ names)) :
    Placed base t' u := by
  obtain ⟨dirs, file, content, hnames, hlead, hcontent⟩ := h
  exact ⟨dirs, file, content, hnames, hlead, (hfile _ hlead.parts_eq).trans hcontent⟩

/-- A file that is there is found. -/
theorem Placed.isFile (h : Placed base t u) (hr : t.Reachable base) (hread : u.name.IsRead) :
    t.isFile (.below (some base)) u.path = true := by
  obtain ⟨dirs, file, content, -, hlead, hcontent⟩ := h
  have hstanding := Tree.content?_eq_some_iff.1 hcontent
  rw [← List.append_assoc] at hstanding
  refine Tree.isFile_of_standing? rfl rfl hlead (u.endsInSlash_path hread) hstanding ⟨?_, ?_⟩
  · exact Tree.standing?_of_append (List.cons_ne_nil _ _) (by rw [hstanding]; simp)
  · intro name hname
    rcases List.mem_append.1 hname with hbase | hdir
    · exact hr.2 name hbase
    · exact hlead.short name (List.mem_append_left _ hdir)

/-! ## One write

A write finds its unit up to date, or saves it, or fails, and `Answered` covers all three: it says
how the session and its tree have changed by what the result was. Only the unit's own path is
touched in the record. In the tree a write that fails may have changed the unit's file, on a disk
that is honest, but no other one. -/

/-- What a write does to the session and its tree, whether it goes well or not. -/
structure Answered (base : Location) (u : SourceUnit) (st : Session × Tree)
    (w : Written (Session × Tree)) : Prop where
  /-- the root is where it was -/
  base_eq : w.state.1.base = some base
  /-- the session remembers what was listed when it began -/
  previous_eq : w.state.1.previous = st.1.previous
  /-- and what it was asked for -/
  attempted_eq : w.state.1.attempted = st.1.attempted ++ [u.path.parts]
  /-- nothing is deleted -/
  removed_eq : w.state.1.removed = st.1.removed
  /-- directories stay -/
  keeps : st.2.Keeps w.state.2
  /-- the path is listed with the digest of the text if the write went well, and only then -/
  digest : ∀ digest, (w.state.1.record.find? u.path.parts).map (·.digest) = some digest ↔
    w.result = .ok () ∧ digest = Digest.ofText u.render
  /-- about other paths the record says what it said -/
  others : ∀ key ≠ u.path.parts, w.state.1.record.find? key = st.1.record.find? key
  /-- sources are known by the parts of their paths if they were before -/
  keyed : st.1.record.Keyed → w.state.1.record.Keyed
  /-- a listed path was listed before, or it is the path of the unit -/
  paths : ∀ p ∈ w.state.1.record.paths, p ∈ st.1.record.paths ∨ p = u.path
  /-- the files at other paths are the same -/
  file : ∀ names : List String, u.path.parts ≠ names.map .name →
    w.state.2.content? (base ++ names) = st.2.content? (base ++ names)
  /-- and those outside the root -/
  outside : ∀ loc, ¬base <+: loc → w.state.2.content? loc = st.2.content? loc
  /-- if the write went well then the file is there -/
  placed : w.result = .ok () → Placed base w.state.2 u

/-- Only sources are ever taken. -/
theorem source_of_write (hdisk : disk.Honest) (hb : s.base = some base) (hread : u.name.IsRead)
    (hok : (write disk s t u).result = .ok ()) :
    ∃ dirs file, SourceNames dirs file ∧ u.path.parts = (dirs ++ [file]).map .name := by
  rcases u.path_parts hread with ⟨rest, hroot⟩ | hnames
  · exact absurd hok (write_root hdisk hb hroot)
  · exact hnames

/-- A write that goes well finds the file or makes it, so the file is there afterwards. -/
theorem placed_of_write (hdisk : disk.Honest) (hb : s.base = some base) (hread : u.name.IsRead)
    (hok : (write disk s t u).result = .ok ()) : Placed base (write disk s t u).state.2 u := by
  obtain ⟨dirs, file, hnames, hp⟩ := source_of_write hdisk hb hread hok
  rcases write_cases disk t u hb with
    ⟨-, hfile, -, hst⟩ | ⟨t', hsave, -, hst⟩ | ⟨e, t', -, hresult, -⟩
  · obtain ⟨hlead, content, hcontent⟩ := Tree.isFile_eq_true rfl rfl hp hfile
    rw [hst]
    rw [List.append_assoc] at hcontent
    exact ⟨dirs, file, content, hnames, hlead, Tree.content?_eq_some_iff.2 hcontent⟩
  · rw [hst]
    exact ⟨dirs, file, _, hnames, (Tree.saveText_ok rfl rfl hp (hdisk.save_ok hsave)).1,
      hdisk.content?_save_ok hp hsave⟩
  · rw [hresult] at hok
    cases hok

/-- Saving a unit changes no file outside the root. -/
theorem content?_save_unit_outside (hdisk : disk.Honest) (hread : u.name.IsRead) {loc : Location}
    (hloc : ¬base <+: loc) {text : String} {res : Except Fault Unit}
    (hsave : disk.save t (some base) u.path text = (res, t')) :
    t'.content? loc = t.content? loc := by
  refine hdisk.content?_save ((u.path_parts hread).imp id ?_) hsave
  rintro ⟨dirs, file, -, hp⟩
  refine ⟨dirs, file, hp, ?_⟩
  rintro rfl
  exact hloc (List.prefix_append _ _)

/-- Every write on an honest disk is of this kind. -/
theorem answered_write (hdisk : disk.Honest) (hb : s.base = some base) (hread : u.name.IsRead) :
    Answered base u (s, t) (write disk s t u) := by
  have hplaced := placed_of_write (t := t) hdisk hb hread
  rcases write_cases disk t u hb with
    ⟨hdigest, -, hresult, hst⟩ | ⟨t', hsave, hresult, hst⟩ | ⟨e, t', hsave, hresult, hst⟩
  · rw [hst] at hplaced
    constructor <;> rw [hst]
    case base_eq => exact hb
    case keeps => exact .refl t
    case digest =>
      intro digest
      rw [hresult, show (s.record.find? u.path.parts).map (·.digest) = _ from hdigest]
      simp [eq_comm]
    case others => exact fun _ _ => rfl
    case keyed => exact id
    case paths => exact fun _ => Or.inl
    case file => exact fun _ _ => rfl
    case outside => exact fun _ _ => rfl
    case placed => exact hplaced
  · rw [hst] at hplaced
    constructor <;> rw [hst]
    case base_eq => exact hb
    case keeps => exact keeps_save_unit hdisk hread hsave
    case digest =>
      intro digest
      rw [hresult, Record.digest_note, if_pos rfl]
      simp [eq_comm]
    case others =>
      intro key hkey
      exact (Record.find?_note ..).trans (if_neg hkey)
    case keyed => exact fun h => h.note _ _
    case paths => exact fun _ => Record.mem_paths_of_note
    case file => exact fun names hne => content?_save_unit hdisk hread hne hsave
    case outside => exact fun loc hloc => content?_save_unit_outside hdisk hread hloc hsave
    case placed => exact hplaced
  · rw [hst] at hplaced
    constructor <;> rw [hst]
    case base_eq => exact hb
    case keeps => exact keeps_save_unit hdisk hread hsave
    case digest =>
      intro digest
      rw [hresult, Record.find?_forget, if_pos rfl]
      simp
    case others =>
      intro key hkey
      exact (Record.find?_forget ..).trans (if_neg hkey)
    case keyed => exact fun h => h.forget _
    case paths => exact fun _ hp => Or.inl (Record.mem_paths_of_forget hp)
    case file => exact fun names hne => content?_save_unit hdisk hread hne hsave
    case outside => exact fun loc hloc => content?_save_unit_outside hdisk hread hloc hsave
    case placed => exact hplaced

/-! ## Writes in a row

Each write may meet another disk, so the run is defined with a disk for each unit; a sink is the
case of a single disk. `AfterAttempts` is the invariant. It speaks of each path by the last attempt
at it, and one write keeps it up: at its own path the attempt is now the last one, and at all others
nothing has changed. By induction on the writes it holds after any number of them. -/

/-- Gives the units to the session, one after the other, going on past failures. -/
def writeEach (st : Session × Tree) : List (Disk × SourceUnit) → (Session × Tree) × List Attempt
  | [] => (st, [])
  | (disk, u) :: rest =>
    let w := write disk st.1 st.2 u
    let (st', as) := writeEach w.state rest
    (st', ⟨u, w.result⟩ :: as)

/-- Where a session stands that found the record `r` in the tree `t₀` and has made the attempts
since. -/
structure AfterAttempts (base : Location) (t₀ : Tree) (r : Record) (as : List Attempt)
    (st : Session × Tree) : Prop where
  /-- the root is where it was -/
  base_eq : st.1.base = some base
  /-- the session remembers what was listed when it began -/
  previous_eq : st.1.previous = r.paths
  /-- and what it was asked for -/
  attempted_eq : st.1.attempted = as.map (·.unit.path.parts)
  /-- nothing is deleted so far -/
  removed_eq : st.1.removed = []
  /-- directories stay -/
  keeps : t₀.Keeps st.2
  /-- sources are known by the parts of their paths -/
  keyed : st.1.record.Keyed
  /-- a listed path was listed before, or it is the path of a unit -/
  paths : ∀ p ∈ st.1.record.paths, p ∈ r.paths ∨ ∃ a ∈ as, a.unit.path = p
  /-- a path is listed with the digest of the last text if that attempt went well, and only then -/
  digest : ∀ key a, lastAttempt as key = some a →
    ∀ digest, (st.1.record.find? key).map (·.digest) = some digest ↔
      a.result = .ok () ∧ digest = Digest.ofText a.unit.render
  /-- about a path without an attempt the record says what it said -/
  unasked : ∀ key, lastAttempt as key = none → st.1.record.find? key = r.find? key
  /-- and its file is the same -/
  file : ∀ names : List String, lastAttempt as (names.map .name) = none →
    st.2.content? (base ++ names) = t₀.content? (base ++ names)
  /-- so are the files outside the root -/
  outside : ∀ loc, ¬base <+: loc → st.2.content? loc = t₀.content? loc
  /-- the file is there if the last attempt at it went well -/
  placed : ∀ key a, lastAttempt as key = some a → a.result = .ok () → Placed base st.2 a.unit

/-- A session that was just opened has made no attempts. -/
theorem afterAttempts_fresh (root : Path) (hr : r.Keyed) :
    AfterAttempts base t r [] (fresh root base r, t) where
  base_eq := rfl
  previous_eq := rfl
  attempted_eq := rfl
  removed_eq := rfl
  keeps := .refl t
  keyed := hr
  paths := fun _ => Or.inl
  digest := fun _ _ h => by cases h
  unasked := fun _ _ => rfl
  file := fun _ _ => rfl
  outside := fun _ _ => rfl
  placed := fun _ _ h => by cases h

/-- Every write keeps this up, whether it goes well or not. -/
theorem AfterAttempts.write (h : AfterAttempts base t₀ r as (s, t)) (hdisk : disk.Honest)
    (hread : u.name.IsRead) :
    AfterAttempts base t₀ r (as ++ [⟨u, (Session.write disk s t u).result⟩])
      (Session.write disk s t u).state := by
  have hw := answered_write (t := t) hdisk h.base_eq hread
  -- the attempt is the last one at its own path, and leaves the other paths their last attempts
  have hsplit : ∀ key, (key = u.path.parts ∧
      lastAttempt (as ++ [⟨u, (Session.write disk s t u).result⟩]) key =
        some ⟨u, (Session.write disk s t u).result⟩) ∨
      key ≠ u.path.parts ∧ lastAttempt (as ++ [⟨u, (Session.write disk s t u).result⟩]) key =
        lastAttempt as key := by
    intro key
    rw [lastAttempt_concat]
    by_cases hkey : u.path.parts = key
    · exact Or.inl ⟨hkey.symm, if_pos hkey⟩
    · exact Or.inr ⟨Ne.symm hkey, if_neg hkey⟩
  constructor
  case base_eq => exact hw.base_eq
  case previous_eq => exact hw.previous_eq.trans h.previous_eq
  case attempted_eq =>
    rw [hw.attempted_eq, h.attempted_eq, List.map_append]
    rfl
  case removed_eq => exact hw.removed_eq.trans h.removed_eq
  case keeps => exact h.keeps.trans hw.keeps
  case keyed => exact hw.keyed h.keyed
  case paths =>
    intro p hp
    rcases hw.paths p hp with hp | rfl
    · rcases h.paths p hp with hp | ⟨a, ha, rfl⟩
      · exact Or.inl hp
      · exact Or.inr ⟨a, List.mem_append_left _ ha, rfl⟩
    · exact Or.inr ⟨_, List.mem_concat_self, rfl⟩
  case digest =>
    intro key a ha
    rcases hsplit key with ⟨hkey, hlast⟩ | ⟨hkey, hlast⟩
    · rw [hlast] at ha
      cases ha
      rw [hkey]
      exact hw.digest
    · rw [hw.others key hkey]
      exact h.digest key a (hlast ▸ ha)
  case unasked =>
    intro key hnone
    rcases hsplit key with ⟨-, hlast⟩ | ⟨hkey, hlast⟩
    · rw [hlast] at hnone
      cases hnone
    · exact (hw.others key hkey).trans (h.unasked key (hlast ▸ hnone))
  case file =>
    intro names hnone
    rcases hsplit (names.map .name) with ⟨-, hlast⟩ | ⟨hkey, hlast⟩
    · rw [hlast] at hnone
      cases hnone
    · exact (hw.file names (Ne.symm hkey)).trans (h.file names (hlast ▸ hnone))
  case outside => exact fun loc hloc => (hw.outside loc hloc).trans (h.outside loc hloc)
  case placed =>
    intro key a ha hok
    rcases hsplit key with ⟨-, hlast⟩ | ⟨hkey, hlast⟩
    · rw [hlast] at ha
      cases ha
      exact hw.placed hok
    · rw [hlast] at ha
      refine (h.placed key a ha hok).of_frame fun names hnames => hw.file names ?_
      rw [← hnames, (mem_of_lastAttempt ha).2]
      exact Ne.symm hkey

/-- Every unit is attempted once, in order. -/
theorem units_writeEach (st : Session × Tree) (writes : List (Disk × SourceUnit)) :
    (writeEach st writes).2.map (·.unit) = writes.map Prod.snd := by
  induction writes generalizing st with
  | nil => rfl
  | cons w rest ih => exact congrArg (w.2 :: ·) (ih _)

/-- An attempt was at one of the units. -/
theorem exists_of_mem_attempts {writes : List (Disk × SourceUnit)} {st' : Session × Tree}
    (h : writeEach st writes = (st', as)) {a : Attempt} (ha : a ∈ as) :
    ∃ w ∈ writes, w.2 = a.unit := by
  have hunits := units_writeEach st writes
  rw [h] at hunits
  exact List.mem_map.1 (hunits ▸ List.mem_map_of_mem ha)

/-- Any number of writes keep this up. By induction on the writes, from the front, with the attempts
before them generalized. -/
theorem AfterAttempts.writeEach (h : AfterAttempts base t₀ r before st)
    {writes : List (Disk × SourceUnit)} (hwrites : ∀ w ∈ writes, w.1.Honest ∧ w.2.name.IsRead) :
    AfterAttempts base t₀ r (before ++ (Session.writeEach st writes).2)
      (Session.writeEach st writes).1 := by
  induction writes generalizing before st with
  | nil => simpa [Session.writeEach] using h
  | cons w rest ih =>
    obtain ⟨disk, u⟩ := w
    obtain ⟨hdisk, hread⟩ := hwrites _ List.mem_cons_self
    have hrest := ih (h.write hdisk hread) fun v hv => hwrites v (List.mem_cons_of_mem _ hv)
    rwa [List.append_assoc] at hrest

/-- A sink that is given units makes each write on its disk. -/
theorem writeEach_map (disk : Disk) (st : Session × Tree) (us : List SourceUnit) :
    Session.writeEach st (us.map fun u => (disk, u)) =
      (((sink disk).writeAll st us).state, ((sink disk).writeAll st us).attempts) := by
  induction us generalizing st with
  | nil => rfl
  | cons u us ih =>
    simp only [List.map_cons, Session.writeEach, Sink.writeAll, ih]
    rfl

theorem AfterAttempts.writeAll (h : AfterAttempts base t₀ r before st) (hdisk : disk.Honest)
    {us : List SourceUnit} (hread : ∀ u ∈ us, u.name.IsRead) :
    AfterAttempts base t₀ r (before ++ ((sink disk).writeAll st us).attempts)
      ((sink disk).writeAll st us).state := by
  have hwrites : ∀ w ∈ us.map fun u => (disk, u), w.1.Honest ∧ w.2.name.IsRead := by
    intro w hw
    obtain ⟨u, hu, rfl⟩ := List.mem_map.1 hw
    exact ⟨hdisk, hread u hu⟩
  have hall := h.writeEach hwrites
  rwa [writeEach_map] at hall

/-! ## Ending

The end of a session that goes well discards the listed sources without an attempt, in the order of
the old record, and then saves what is left as the new record. Discarding stops at the first path
that cannot be removed, so if it ends well all of them were paths of names, whose files are gone
now. `Closed` is what that comes to, for the record by look-ups and for the files by locations. -/

/-- Sources that were discarded are off the record and are told of. -/
theorem discard_session {ps : List Path} (hok : (discard disk s t ps).result = .ok ()) :
    (discard disk s t ps).state.1 =
      { s with record := ps.foldl Record.forget s.record, removed := s.removed ++ ps } := by
  induction ps generalizing s t with
  | nil => simp [discard]
  | cons p rest ih =>
    rw [discard] at hok ⊢
    simp only at hok ⊢
    split at hok
    · rw [ih hok]
      simp
    · rw [ih hok]
      simp
    · cases hok

/-- The end of a session that goes well discards what is stale, and then saves the record. -/
theorem finish_session (hok : (finish disk s t).result = .ok ()) :
    (discard disk s t s.stale).result = .ok () ∧
      (finish disk s t).state.1 =
        { s with
          record := s.stale.foldl Record.forget s.record
          removed := s.removed ++ s.stale
          previous := (s.stale.foldl Record.forget s.record).paths } ∧
      disk.save (discard disk s t s.stale).state.2 s.base Record.fileName
        (finish disk s t).state.1.record.write = (.ok (), (finish disk s t).state.2) := by
  have hsession := @discard_session t s disk s.stale
  rw [finish] at hok ⊢
  generalize discard disk s t s.stale = w at hok hsession ⊢
  obtain ⟨⟨s', t'⟩, e | ⟨⟨⟩⟩, events⟩ := w
  · cases hok
  · obtain rfl := hsession rfl
    exact ⟨rfl, rfl, Prod.ext hok rfl⟩

/-- A path that was discarded is made of names: one with a leading slash would have been refused.
That is why nothing has to be assumed about the record on this point. -/
theorem names_of_discard {ps : List Path} (hdisk : disk.Candid) (hb : s.base = some base)
    (hr : t.Reachable base) (hps : ∀ p ∈ ps, (∃ rest, p.parts = .root :: rest) ∨
      ∃ dirs file, p.parts = (dirs ++ [file]).map .name)
    (hok : (discard disk s t ps).result = .ok ()) :
    ∀ p ∈ ps, ∃ dirs file, p.parts = (dirs ++ [file]).map .name := by
  induction ps generalizing s t with
  | nil => exact fun _ h => by cases h
  | cons p rest ih =>
    obtain ⟨res, t', hdelete, ⟨hres, dropped, hbase, -, hresult, -⟩ | ⟨e, hresult, -⟩⟩ :=
      discard_cases disk s t p rest
    · rw [hb] at hdelete
      have hremove : t.removeFile (.below (some base)) p = (res, t') := by
        rcases hres with rfl | rfl
        · exact hdisk.delete_ok hdelete
        · exact hdisk.delete_notFound hdelete
      rcases hps p List.mem_cons_self with ⟨more, hroot⟩ | ⟨dirs, file, hp⟩
      · obtain ⟨hnot, hnot'⟩ := Tree.removeFile_root rfl rfl hr hroot hremove
        rcases hres with rfl | rfl
        · exact absurd rfl hnot
        · exact absurd rfl hnot'
      · have hkeeps := (standing?_of_delete hr hp hremove hres).1
        have hrest := ih (hbase.trans hb) (hkeeps.reachable hr)
          (fun q hq => hps q (List.mem_cons_of_mem _ hq)) (hresult ▸ hok)
        intro q hq
        rcases List.mem_cons.1 hq with rfl | hq
        · exact ⟨dirs, file, hp⟩
        · exact hrest q hq
    · rw [hresult] at hok
      cases hok

/-- The listed sources without an attempt, by the parts of their paths. -/
theorem mem_unattempted_iff (hr : r.Keyed) {key : List Path.Part} :
    key ∈ (r.paths.filter fun p => decide (p.parts ∉ as.map (·.unit.path.parts))).map (·.parts) ↔
      (r.find? key).isSome = true ∧ lastAttempt as key = none := by
  rw [lastAttempt_eq_none_iff, List.mem_map]
  constructor
  · rintro ⟨p, hp, rfl⟩
    obtain ⟨hlisted, hunasked⟩ := List.mem_filter.1 hp
    obtain ⟨key, x, hx, rfl⟩ := Record.mem_paths_iff.1 hlisted
    rw [← hr key x hx] at hunasked ⊢
    exact ⟨by rw [hx]; rfl, of_decide_eq_true hunasked⟩
  · rintro ⟨hlisted, hunasked⟩
    obtain ⟨x, hx⟩ := Option.isSome_iff_exists.1 hlisted
    have hkey := hr key x hx
    refine ⟨x.path, List.mem_filter.2 ⟨?_, ?_⟩, hkey.symm⟩
    · exact Record.mem_paths_iff.2 ⟨key, x, hx, rfl⟩
    · exact decide_eq_true (hkey ▸ hunasked)

/-- What the end of a session has done that had found the record `r` and made the attempts, and had
then begun its end in the tree `t`. -/
structure Closed (base : Location) (r : Record) (as : List Attempt) (t : Tree)
    (st : Session × Tree) : Prop where
  /-- the root is where it was -/
  base_eq : st.1.base = some base
  /-- the session remembers what it was asked for -/
  attempted_eq : st.1.attempted = as.map (·.unit.path.parts)
  /-- what is listed now was listed before from now on -/
  previous_eq : st.1.previous = st.1.record.paths
  /-- what was listed before and not asked for was deleted, in order -/
  removed_eq : st.1.removed = r.paths.filter fun p => decide (p.parts ∉ as.map (·.unit.path.parts))
  /-- these are paths of names -/
  names : ∀ p ∈ st.1.removed, ∃ dirs file, p.parts = (dirs ++ [file]).map .name
  /-- directories stay -/
  keeps : t.Keeps st.2
  /-- sources are known by the parts of their paths -/
  keyed : st.1.record.Keyed
  /-- a listed path was listed before, or it is the path of a unit -/
  paths : ∀ p ∈ st.1.record.paths, p ∈ r.paths ∨ ∃ a ∈ as, a.unit.path = p
  /-- the paths are listed where the last attempt went well, with the digest of its text -/
  digest : ∀ key digest, (st.1.record.find? key).map (·.digest) = some digest ↔
    ∃ a, lastAttempt as key = some a ∧ a.result = .ok () ∧ digest = Digest.ofText a.unit.render
  /-- the record was saved -/
  recorded : st.2.content? (base ++ [Record.entryName]) = some st.1.record.write.toUTF8
  /-- of the other files, those that were deleted are gone, and the others stay -/
  file : ∀ names : List String, names ≠ [Record.entryName] → st.2.content? (base ++ names) =
    if names.map .name ∈ st.1.removed.map (·.parts) then none else t.content? (base ++ names)
  /-- files outside the root stay -/
  outside : ∀ loc, ¬base <+: loc → st.2.content? loc = t.content? loc

/-- A session that ends well has closed its root in this way. -/
theorem AfterAttempts.finish (h : AfterAttempts base t₀ r as (s, t)) (hr : r.Keyed)
    (hpaths : ∀ p ∈ r.paths, (∃ rest, p.parts = .root :: rest) ∨
      ∃ dirs file, p.parts = (dirs ++ [file]).map .name)
    (hreachable : t₀.Reachable base) (hdisk : disk.Candid)
    (hok : (Session.finish disk s t).result = .ok ()) :
    Closed base r as t (Session.finish disk s t).state := by
  have hb : s.base = some base := h.base_eq
  have hreachable := h.keeps.reachable hreachable
  obtain ⟨hdiscard, hsession, hsave⟩ := finish_session hok
  have hstale : s.stale = r.paths.filter fun p =>
      decide (p.parts ∉ as.map (·.unit.path.parts)) := by
    rw [stale, show s.previous = _ from h.previous_eq, show s.attempted = _ from h.attempted_eq]
  have hnames := names_of_discard hdisk hb hreachable
    (fun p hp => hpaths p (List.mem_filter.1 (hstale ▸ hp)).1) hdiscard
  have hcleared := cleared_discard hdisk hb hreachable hnames hdiscard
  have hremoved : (Session.finish disk s t).state.1.removed = s.stale := by
    rw [hsession]
    exact (congrArg (· ++ s.stale) h.removed_eq).trans (List.nil_append _)
  have hrecord : (Session.finish disk s t).state.1.record =
      (discard disk s t s.stale).state.1.record := by
    rw [hsession, discard_session hdiscard]
  rw [hb] at hsave
  have hsaved := hdisk.save_ok hsave
  have hsub : ∀ key x, (Session.finish disk s t).state.1.record.find? key = some x →
      s.record.find? key = some x := by
    intro key x hx
    rw [hrecord, hcleared.record] at hx
    split at hx
    · cases hx
    · exact hx
  constructor
  case base_eq => rw [hsession, hb]
  case attempted_eq =>
    rw [hsession]
    exact h.attempted_eq
  case previous_eq => rw [hsession]
  case removed_eq => rw [hremoved, hstale]
  case names => exact hremoved ▸ hnames
  case keeps => exact hcleared.keeps.trans (keeps_of_save_record hsaved)
  case keyed => exact fun key x hx => h.keyed key x (hsub key x hx)
  case paths =>
    intro p hp
    obtain ⟨key, x, hx, rfl⟩ := Record.mem_paths_iff.1 hp
    exact h.paths _ (Record.mem_paths_iff.2 ⟨key, x, hsub key x hx, rfl⟩)
  case digest =>
    intro key digest
    have hstale : key ∈ s.stale.map (·.parts) ↔
        (r.find? key).isSome = true ∧ lastAttempt as key = none := by
      rw [hstale, mem_unattempted_iff hr]
    rw [hrecord, hcleared.record]
    rcases ha : lastAttempt as key with _ | a
    · -- without an attempt the path is stale if it was listed before, else it stays unlisted
      by_cases hlisted : (r.find? key).isSome = true
      · rw [if_pos (hstale.2 ⟨hlisted, ha⟩)]
        simp
      · rw [if_neg (fun hmem => hlisted (hstale.1 hmem).1), h.unasked key ha]
        simp [Option.not_isSome_iff_eq_none.1 hlisted]
    · have hunstale : key ∉ s.stale.map (·.parts) := by
        rw [hstale, ha]
        simp
      rw [if_neg hunstale, h.digest key a ha]
      simp
  case recorded => exact Tree.content?_eq_some_iff.2 (standing?_record_of_save hsaved)
  case file =>
    intro names hn
    rw [hremoved, ← hcleared.file]
    refine hdisk.content?_save (Or.inr ⟨[], _, Record.leads_fileName.parts_eq, ?_⟩) hsave
    simpa using hn
  case outside =>
    intro loc hloc
    rw [← hcleared.outside loc hloc]
    refine hdisk.content?_save (Or.inr ⟨[], _, Record.leads_fileName.parts_eq, ?_⟩) hsave
    rintro rfl
    exact hloc (List.prefix_append _ _)

/-- What is listed was asked for. -/
theorem Closed.parts_mem_attempted (h : Closed base r as t st) {p : Path}
    (hp : p ∈ st.1.record.paths) : p.parts ∈ as.map (·.unit.path.parts) := by
  obtain ⟨key, x, hx, rfl⟩ := Record.mem_paths_iff.1 hp
  obtain ⟨a, ha, -⟩ := (h.digest key x.digest).1 (by rw [hx]; rfl)
  obtain ⟨hmem, hkey⟩ := mem_of_lastAttempt ha
  rw [← h.keyed key x hx, ← hkey]
  exact List.mem_map_of_mem hmem

/-- The end leaves the files alone that were asked for. -/
theorem Closed.content?_of_attempted (h : Closed base r as t st)
    (hread : ∀ a ∈ as, a.unit.name.IsRead) {names : List String}
    (hasked : names.map .name ∈ as.map (·.unit.path.parts)) :
    st.2.content? (base ++ names) = t.content? (base ++ names) := by
  obtain ⟨a, ha, hkey⟩ := List.mem_map.1 hasked
  have hn : names ≠ [Record.entryName] := by
    rintro rfl
    exact path_parts_ne_record (hread a ha) hkey
  rw [h.file names hn, if_neg]
  rw [h.removed_eq]
  intro hmem
  obtain ⟨p, hp, he⟩ := List.mem_map.1 hmem
  exact of_decide_eq_true (List.mem_filter.1 hp).2 (he ▸ hasked)

/-- The new record can be read back if its paths fit on a line. -/
theorem Closed.legible (h : Closed base r as t st) (hread : ∀ a ∈ as, a.unit.name.IsRead)
    (hfeed : ∀ p ∈ st.1.record.paths, '\n' ∉ p.text.toList) : st.1.record.Legible where
  key_eq := h.keyed
  line := by
    intro key x hx
    obtain ⟨a, ha, -, hdigest⟩ := (h.digest key x.digest).1 (by rw [hx]; rfl)
    obtain ⟨hmem, hkey⟩ := mem_of_lastAttempt ha
    exact RecordedSource.legible_of_path_parts (hread a hmem)
      ((h.keyed key x hx).symm.trans hkey.symm)
      (hfeed _ (Record.mem_paths_iff.2 ⟨key, x, hx, rfl⟩)) hdigest

/-- These fit on a line if those of the old record and of the units do. -/
theorem Closed.legible_of_units (h : Closed base r as t st)
    (hread : ∀ a ∈ as, a.unit.name.IsRead) (hlisted : ∀ p ∈ r.paths, '\n' ∉ p.text.toList)
    (hfeed : ∀ a ∈ as, '\n' ∉ a.unit.path.text.toList) : st.1.record.Legible := by
  refine h.legible hread fun p hp => ?_
  rcases h.paths p hp with hp | ⟨a, ha, rfl⟩
  · exact hlisted p hp
  · exact hfeed a ha

/-- A record that can be read back is found when the root is opened again. -/
theorem Closed.loadRecord_eq (h : Closed base r as t st) (hr : t.Reachable base)
    (hlegible : st.1.record.Legible) : loadRecord st.2 base = .ok st.1.record := by
  rw [loadRecord_of_standing? (h.keeps.reachable hr) (Tree.content?_eq_some_iff.1 h.recorded),
    Record.read_write hlegible]

end Session

end PlatformWiring
