import Mathlib.Logic.Relation
import PlatformWiring.Proofs.Output.Faulty
import PlatformWiring.Proofs.Output.Incremental

/-!
# Unfinished rounds

A session writes its record last. A round that stops before its end, or whose end fails, leaves
files that are new under a record that is old, and the next round believes that record.

The first half of the module says when this does no harm to one file: an unfinished round has
either left the file alone, or left a record that does not list it. Then every later write that
goes well leaves the text of its unit in the file, whatever failed on the way, and although a record
may break off in the middle of a line. The second half is a history in which an unfinished round
has done neither. There a later write answers that the file is up to date, while the file has an
older text.
-/

namespace PlatformWiring

/-- A text that begins the bytes of another one begins the text. Disks stop in the middle of bytes;
this is why what is read of a record that broke off is a beginning of its characters. -/
theorem isPrefix_of_toUTF8_append {s s' : String} {rest : ByteArray}
    (h : s.toUTF8 ++ rest = s'.toUTF8) : s.toList <+: s'.toList := by
  refine List.isPrefix_of_utf8Encode_append_eq_utf8Encode rest ?_
  rw [String.utf8Encode_toList, String.utf8Encode_toList]
  exact h

namespace Session

variable {pool : List SourceUnit} {here base : Location} {root : Path} {names : List String}
  {t t' : Tree} {r r' : Record} {u : SourceUnit} {disk : Disk}

/-! ## What a record says

Two things are said of a record, and neither needs the round that wrote it to have ended. `Lists` is
about its lines: where it has the place of a unit, it has it as a unit would have put it there.
`Truthful` is about one file: if the record has a digest for it, that is the digest of what the file
holds. Both are kept when the record loses lines, and both hold of the beginning of a record, since
a line that breaks off has lost the end of its path and so does not have the place of a unit any
more, or it has none. -/

/-- The record lists sources. Where it has the place of a unit, it has the path as a unit has it,
and the digest of a text. -/
structure Lists (pool : List SourceUnit) (r : Record) : Prop where
  /-- a source is known by the parts of its path -/
  key_eq : ∀ key x, r.find? key = some x → key = x.path.parts
  /-- the place of a unit has the path of a unit, and a digest -/
  source : ∀ u ∈ pool, ∀ x, r.find? u.path.parts = some x →
    (∃ v ∈ pool, x.path = v.path) ∧ ∃ text, x.digest = Digest.ofText text

theorem lists_empty : Lists pool ∅ := by
  constructor
  · intro key x hx
    cases hx
  · intro u hu x hx
    cases hx

/-- A record that lists less lists sources too. -/
theorem Lists.mono (h : Lists pool r) (hsub : ∀ key x, r'.find? key = some x →
    r.find? key = some x) : Lists pool r' where
  key_eq := fun key x hx => h.key_eq key x (hsub key x hx)
  source := fun u hu x hx => h.source u hu x (hsub _ x hx)

/-- It lists sources when a unit is noted. -/
theorem Lists.note (h : Lists pool r) (hu : u ∈ pool) (text : String) :
    Lists pool (r.note u.path (Digest.ofText text)) where
  key_eq := fun key x hx => Record.key_eq_of_note h.key_eq hx
  source := by
    intro v hv x hx
    rcases Record.note_cases hx with hx | ⟨-, rfl | ⟨old, hold, rfl⟩⟩
    · exact h.source v hv x hx
    · exact ⟨⟨u, hu, rfl⟩, text, rfl⟩
    · exact ⟨(h.source v hv old hold).1, text, rfl⟩

/-- A record that lists the places of units only can be read back, if its paths fit on a line. -/
theorem Lists.legible_of_feed_not_mem (h : Lists pool r) (hread : ∀ u ∈ pool, u.name.IsRead)
    (hall : ∀ key x, r.find? key = some x → ∃ u ∈ pool, u.path.parts = key)
    (hfeed : ∀ p ∈ r.paths, '\n' ∉ p.text.toList) : r.Legible where
  key_eq := h.key_eq
  line := by
    intro key x hx
    obtain ⟨u, hu, rfl⟩ := hall key x hx
    obtain ⟨⟨v, hv, hpath⟩, text, hdigest⟩ := h.source u hu x hx
    have hline := v.legible (hread v hv)
      (hpath ▸ hfeed x.path (Record.mem_paths_iff.2 ⟨_, x, hx, rfl⟩)) text
    rwa [← hpath, ← hdigest] at hline

/-- So it can if the paths of all units do, which is what `Emittable` says of them. -/
theorem Lists.legible (h : Lists pool r) (hpool : Emittable pool)
    (hall : ∀ key x, r.find? key = some x → ∃ u ∈ pool, u.path.parts = key) : r.Legible := by
  refine h.legible_of_feed_not_mem hpool.read hall fun p hp => ?_
  obtain ⟨key, x, hx, rfl⟩ := Record.mem_paths_iff.1 hp
  obtain ⟨u, hu, rfl⟩ := hall key x hx
  obtain ⟨⟨v, hv, hpath⟩, -⟩ := h.source u hu x hx
  exact hpath ▸ hpool.feed_not_mem v hv

/-- The beginning of such a record lists sources too, and says nothing else about the places of
units. -/
theorem Lists.read_of_prefix (h : Lists pool r) (hpool : Emittable pool)
    (hall : ∀ key x, r.find? key = some x → ∃ u ∈ pool, u.path.parts = key) {text : String}
    (hpre : text.toList <+: r.write.toList) :
    Lists pool (Record.read text) ∧ ∀ u ∈ pool, ∀ digest,
      ((Record.read text).find? u.path.parts).map (·.digest) = some digest →
        (r.find? u.path.parts).map (·.digest) = some digest := by
  have hsame : ∀ {r₁ : Record} {key digest},
      (∀ key x, r₁.find? key = some x → r.find? key = some x) →
      (r₁.find? key).map (·.digest) = some digest →
        (r.find? key).map (·.digest) = some digest := by
    intro r₁ key digest hsub hdigest
    obtain ⟨x, hx, rfl⟩ := Option.map_eq_some_iff.1 hdigest
    rw [hsub key x hx]
    rfl
  obtain ⟨r₁, hsub, hread | ⟨x, q, hx, hnew, hq, hread⟩⟩ :=
    Record.read_of_prefix (h.legible hpool hall) hpre
  · rw [hread]
    exact ⟨h.mono hsub, fun u _ digest hdigest => hsame hsub hdigest⟩
  · obtain ⟨w, hw, hkey⟩ := hall _ x hx
    obtain ⟨⟨v, hv, hpath⟩, text', hdigest'⟩ := h.source w hw x (by rw [hkey, hx])
    -- the last line has broken off in the path of a unit, so it is that path or no unit's
    have hbroken : ∀ u ∈ pool, u.path.parts = q.parts → q = x.path := by
      intro u hu he
      rw [hpath] at hq ⊢
      exact SourceUnit.text_eq_of_prefix (hpool.read v hv) (hpool.read u hu) hq he.symm
    have h₁ : Lists pool r₁ := h.mono hsub
    rw [hread]
    refine ⟨⟨fun key y => Record.key_eq_of_note h₁.key_eq, fun u hu y hy => ?_⟩,
      fun u hu digest hdigest => ?_⟩
    · rw [Record.find?_note] at hy
      split at hy
      · rename_i hu'
        obtain rfl := hbroken u hu hu'
        rw [hnew] at hy
        cases hy
        exact ⟨⟨v, hv, hpath⟩, text', hdigest'⟩
      · exact h₁.source u hu y hy
    · rw [Record.digest_note] at hdigest
      split at hdigest
      · rename_i hu'
        rw [hu', hbroken u hu hu', hx]
        exact hdigest
      · exact hsame hsub hdigest

/-- If the record has a digest for the names and a file is there, then the digest is that of the
text of the file. -/
def Truthful (pool : List SourceUnit) (base : Location) (names : List String) (t : Tree)
    (r : Record) : Prop :=
  ∀ digest c, (r.find? (names.map .name)).map (·.digest) = some digest →
    t.content? (base ++ names) = some c →
      ∃ v ∈ pool, c = v.render.toUTF8 ∧ digest = Digest.ofText v.render

/-- A record that says less, about files that are gone or what they were, is truthful too. -/
theorem Truthful.mono (h : Truthful pool base names t r)
    (hdigest : ∀ digest, (r'.find? (names.map .name)).map (·.digest) = some digest →
      (r.find? (names.map .name)).map (·.digest) = some digest)
    (hfile : ∀ c, t'.content? (base ++ names) = some c → t.content? (base ++ names) = some c) :
    Truthful pool base names t' r' :=
  fun digest c hd hc => h digest c (hdigest digest hd) (hfile c hc)

/-- The beginning of a truthful record is truthful. -/
theorem Truthful.read_of_prefix (h : Truthful pool base names t r) (hlists : Lists pool r)
    (hpool : Emittable pool)
    (hall : ∀ key x, r.find? key = some x → ∃ u ∈ pool, u.path.parts = key) (hu : u ∈ pool)
    (hp : u.path.parts = names.map .name)
    (hfile : t'.content? (base ++ names) = t.content? (base ++ names)) {text : String}
    (hpre : text.toList <+: r.write.toList) :
    Lists pool (Record.read text) ∧ Truthful pool base names t' (Record.read text) := by
  obtain ⟨hread, hsays⟩ := hlists.read_of_prefix hpool hall hpre
  refine ⟨hread, h.mono (fun digest hd => ?_) fun c hc => by rwa [hfile] at hc⟩
  rw [← hp] at hd ⊢
  exact hsays u hu digest hd

/-- What a round may believe when it opens the root: the record on the disk lists sources, and it is
truthful about the names. -/
def Sound (pool : List SourceUnit) (base : Location) (names : List String) (t : Tree) : Prop :=
  ∀ text : String, t.content? (base ++ [Record.entryName]) = some text.toUTF8 →
    Lists pool (Record.read text) ∧ Truthful pool base names t (Record.read text)

/-- The record and the file are what they were. -/
structure Spares (base : Location) (names : List String) (t t' : Tree) : Prop where
  /-- the record is the same -/
  record : t'.content? (base ++ [Record.entryName]) = t.content? (base ++ [Record.entryName])
  /-- the file is the same -/
  file : t'.content? (base ++ names) = t.content? (base ++ names)

/-- What a round may believe stays so when the record and the file do. -/
theorem Spares.sound (h : Spares base names t t') (hs : Sound pool base names t) :
    Sound pool base names t' := by
  intro text htext
  rw [h.record] at htext
  obtain ⟨hlists, htruthful⟩ := hs text htext
  exact ⟨hlists, htruthful.mono (fun _ => id) fun c hc => by rwa [h.file] at hc⟩

/-- Where no file changes these two do not. -/
theorem spares_of_sameFiles (h : Tree.SameFiles t t') : Spares base names t t' :=
  ⟨h.content?_eq _, h.content?_eq _⟩

/-! ## Going on

A round that is under way can be given units, each on a disk of its own, while others change files
behind its back. Whatever happens, the session stays `Faithful`: what it would answer about the file
is true of the file as it is now. The record on the disk is still the old one all that time, so it
says nothing about the session. -/

/-- What can happen while a session goes on: it is given a unit, or others change files, but not the
record and not the file, and the root stays. Each write may meet another disk. -/
inductive Step (pool : List SourceUnit) (base : Location) (names : List String) :
    Session × Tree → Session × Tree → Prop
  /-- the session is given a unit -/
  | write {st : Session × Tree} {disk : Disk} {u : SourceUnit} (hdisk : disk.Honest)
    (hu : u ∈ pool) : Step pool base names st (Session.write disk st.1 st.2 u).state
  /-- others change files -/
  | others {st : Session × Tree} {t' : Tree} (hspares : Spares base names st.2 t')
    (hroot : t'.hasDirectory base = true) :
    Step pool base names st (st.1.notice t', t')

/-- What a session knows that was opened in the tree `t₀` and has gone on from there. -/
structure Faithful (pool : List SourceUnit) (base : Location) (names : List String) (t₀ : Tree)
    (st : Session × Tree) : Prop where
  /-- the root is where it was -/
  base_eq : st.1.base = some base
  /-- it was asked for units only -/
  attempted : ∀ key ∈ st.1.attempted, ∃ u ∈ pool, u.path.parts = key
  /-- the record lists nothing else than what it listed before and the places of units -/
  known : ∀ key x, st.1.record.find? key = some x →
    (∃ p ∈ st.1.previous, p.parts = key) ∨ ∃ u ∈ pool, u.path.parts = key
  /-- it lists sources -/
  lists : Lists pool st.1.record
  /-- it is truthful about the names -/
  truthful : Truthful pool base names st.2 st.1.record
  /-- the record on the disk is the old one -/
  recorded : st.2.content? (base ++ [Record.entryName]) =
    t₀.content? (base ++ [Record.entryName])

/-! ### Opening

Opening a root makes its directory and reads its record, so no file changes and the session begins
with what the record on the disk says. -/

/-- A record that was loaded is empty, or it was read from the record file. -/
theorem content?_of_loadRecord (h : loadRecord t base = .ok r) :
    r = ∅ ∨ ∃ text : String, t.content? (base ++ [Record.entryName]) = some text.toUTF8 ∧
      r = Record.read text := by
  rw [loadRecord] at h
  split at h
  · rename_i text hread
    have hfile := (Tree.standing?_of_find_file rfl rfl Record.leads_fileName.parts_eq
      (Tree.find_of_readText hread)).2
    rw [List.append_nil] at hfile
    exact Or.inr ⟨text, Tree.content?_eq_some_iff.2 hfile, (Except.ok.inj h).symm⟩
  · exact Or.inl (Except.ok.inj h).symm
  · cases h

/-- Opening a root changes no file, whether it succeeds or not. -/
theorem sameFiles_of_start {res : Except Fault Session} (h : start here t root = (res, t')) :
    Tree.SameFiles t t' := by
  have hmake : Tree.SameFiles t (t.makeDirectories (.working here) root).2 :=
    Tree.makeDirectories_sameFiles rfl t root
  rw [start] at h
  split at h
  · rename_i hmade
    rw [hmade] at hmake
    exact (Prod.mk.inj h).2 ▸ hmake
  · rename_i hmade
    rw [hmade] at hmake
    split at h
    · exact (Prod.mk.inj h).2 ▸ hmake
    · exact (Prod.mk.inj h).2 ▸ hmake

/-- A session that opens a sound root is faithful. -/
theorem Sound.start {s : Session} (hs : Sound pool base names t)
    (h : start here t root = (.ok s, t')) (hb : s.base = some base) :
    Faithful pool base names t' (s, t') := by
  have hs' : Sound pool base names t' := (spares_of_sameFiles (sameFiles_of_start h)).sound hs
  obtain ⟨base', r, -, hload, rfl⟩ := start_ok h
  obtain rfl : base' = base := Option.some.inj hb
  obtain ⟨hlists, htruthful⟩ : Lists pool r ∧ Truthful pool base' names t' r := by
    rcases content?_of_loadRecord hload with rfl | ⟨text, htext, rfl⟩
    · exact ⟨lists_empty, fun digest c hd _ => by cases hd⟩
    · exact hs' text htext
  refine ⟨rfl, fun key hkey => absurd hkey List.not_mem_nil, fun key x hx => Or.inl ?_, hlists,
    htruthful, rfl⟩
  exact ⟨x.path, Record.mem_paths_iff.2 ⟨key, x, hx, rfl⟩, (hlists.key_eq key x hx).symm⟩

/-! ### Writing

A write touches the file of its unit and notes the digest of the new text, or it touches the file
and takes it off the record. In both cases the record is truthful afterwards: it has the digest of
what the file holds, or none. Files of other paths are left alone. -/

/-- The names of a path that a unit has are those of a source. -/
theorem names_of_path_parts (hread : u.name.IsRead) (hp : u.path.parts = names.map .name) :
    ∃ dirs file, SourceNames dirs file ∧ names = dirs ++ [file] := by
  rcases u.path_parts hread with ⟨rest, hroot⟩ | ⟨dirs, file, hnames, hp'⟩
  · rw [hroot] at hp
    cases names <;> cases hp
  · refine ⟨dirs, file, hnames, ?_⟩
    by_contra hne
    exact map_name_ne hne (hp.symm.trans hp')

/-- No unit has the path of the record. -/
theorem path_parts_ne_record (hread : u.name.IsRead) :
    u.path.parts ≠ [Record.entryName].map .name := by
  intro hp
  obtain ⟨dirs, file, hnames, he⟩ := names_of_path_parts hread hp
  exact hnames.ne_record he.symm

/-- Saving a unit leaves the files at other paths alone. -/
theorem content?_save_unit (hdisk : disk.Honest) (hread : u.name.IsRead)
    (hne : u.path.parts ≠ names.map .name) {text : String} {res : Except Fault Unit}
    (hsave : disk.save t (some base) u.path text = (res, t')) :
    t'.content? (base ++ names) = t.content? (base ++ names) := by
  refine hdisk.content?_save ((u.path_parts hread).imp id ?_) hsave
  rintro ⟨dirs, file, -, hp⟩
  exact ⟨dirs, file, hp, fun he => hne (by rw [hp, List.append_cancel_left he])⟩

/-- A unit whose path begins with a slash is never taken. -/
theorem write_root {s : Session} {rest : List Path.Part} (hdisk : disk.Honest)
    (hb : s.base = some base) (hroot : u.path.parts = .root :: rest) :
    (write disk s t u).result ≠ .ok () := by
  intro hok
  rcases write_cases disk t u hb with
    ⟨-, hfile, -, -⟩ | ⟨t', hsave, -, -⟩ | ⟨e, t', -, hresult, -⟩
  · obtain ⟨loc, hleads⟩ := Tree.exists_leadsTo_of_isFile hfile
    exact Tree.not_leadsTo_of_root hroot hleads
  · exact Tree.saveText_root rfl hroot _ (hdisk.save_ok hsave)
  · rw [hresult] at hok
    cases hok

/-- A record stays truthful when a unit is saved and noted. -/
theorem Truthful.note (h : Truthful pool base names t r) (hdisk : disk.Honest) (hu : u ∈ pool)
    (hread : u.name.IsRead)
    (hsave : disk.save t (some base) u.path u.render = (.ok (), t')) :
    Truthful pool base names t' (r.note u.path (Digest.ofText u.render)) := by
  intro digest c hd hc
  rw [Record.digest_note] at hd
  split at hd
  · -- the file has just been written
    rename_i hkey
    obtain ⟨dirs, file, -, rfl⟩ := names_of_path_parts hread hkey.symm
    rw [hdisk.content?_save_ok hkey.symm hsave] at hc
    exact ⟨u, hu, (Option.some.inj hc).symm, (Option.some.inj hd).symm⟩
  · rename_i hkey
    rw [content?_save_unit hdisk hread (fun he => hkey he.symm) hsave] at hc
    exact h digest c hd hc

/-- It stays truthful when a unit cannot be saved and is forgotten. -/
theorem Truthful.forget (h : Truthful pool base names t r) (hdisk : disk.Honest)
    (hread : u.name.IsRead) {text : String} {res : Except Fault Unit}
    (hsave : disk.save t (some base) u.path text = (res, t')) :
    Truthful pool base names t' (r.forget u.path) := by
  intro digest c hd hc
  obtain ⟨x, hx, rfl⟩ := Option.map_eq_some_iff.1 hd
  obtain ⟨hkey, hx⟩ := Record.find?_of_forget hx
  rw [content?_save_unit hdisk hread (fun he => hkey he.symm) hsave] at hc
  exact h _ c (by rw [hx]; rfl) hc

/-- Every write keeps a session faithful, whether it goes well or not. -/
theorem Faithful.write {t₀ : Tree} {st : Session × Tree} (h : Faithful pool base names t₀ st)
    (hpool : Emittable pool) (hdisk : disk.Honest) (hu : u ∈ pool) :
    Faithful pool base names t₀ (Session.write disk st.1 st.2 u).state := by
  obtain ⟨s, t⟩ := st
  have hread := hpool.read u hu
  have hattempted : ∀ key ∈ s.attempted ++ [u.path.parts], ∃ v ∈ pool, v.path.parts = key := by
    intro key hkey
    rcases List.mem_append.1 hkey with hkey | hkey
    · exact h.attempted key hkey
    · exact ⟨u, hu, (List.mem_singleton.1 hkey).symm⟩
  rcases write_cases disk t u h.base_eq with
    ⟨-, -, -, hst⟩ | ⟨t', hsave, -, hst⟩ | ⟨e, t', hsave, -, hst⟩
  · rw [hst]
    exact ⟨h.base_eq, hattempted, h.known, h.lists, h.truthful, h.recorded⟩
  · have hrecord := content?_save_unit hdisk hread (path_parts_ne_record hread) hsave
    rw [hst]
    refine ⟨h.base_eq, hattempted, fun key x hx => ?_, h.lists.note hu _,
      h.truthful.note hdisk hu hread hsave, hrecord.trans h.recorded⟩
    rcases Record.note_cases hx with hx | ⟨hkey, -⟩
    · exact h.known key x hx
    · exact Or.inr ⟨u, hu, hkey.symm⟩
  · have hrecord := content?_save_unit hdisk hread (path_parts_ne_record hread) hsave
    rw [hst]
    exact ⟨h.base_eq, hattempted, fun key x hx => h.known key x (Record.find?_of_forget hx).2,
      h.lists.mono fun key x hx => (Record.find?_of_forget hx).2,
      h.truthful.forget hdisk hread hsave, hrecord.trans h.recorded⟩

/-- It stays faithful while others change files, as long as they spare the record and this one. -/
theorem Faithful.others {t₀ : Tree} {st : Session × Tree} (h : Faithful pool base names t₀ st)
    (hspares : Spares base names st.2 t') (hroot : t'.hasDirectory base = true) :
    Faithful pool base names t₀ (st.1.notice t', t') where
  base_eq := by rw [notice, h.base_eq, Option.filter_some, if_pos hroot]
  attempted := h.attempted
  known := h.known
  lists := h.lists
  truthful := h.truthful.mono (fun _ => id) fun c hc => by rwa [hspares.file] at hc
  recorded := hspares.record.trans h.recorded

/-- Whatever a session goes through, it stays faithful. -/
theorem Faithful.steps {t₀ : Tree} {st st' : Session × Tree} (h : Faithful pool base names t₀ st)
    (hpool : Emittable pool) (hsteps : Relation.ReflTransGen (Step pool base names) st st') :
    Faithful pool base names t₀ st' := by
  induction hsteps with
  | refl => exact h
  | tail _ hstep ih =>
    cases hstep with
    | write hdisk hu => exact ih.write hpool hdisk hu
    | others hspares hroot => exact ih.others hspares hroot

/-! ### Ending

The end discards stale sources and then writes the record. Discarding only takes away, files as well
as lines, and once it has ended well the record lists the places of units and no others. -/

/-- What discarding sources does on an honest disk, whether it ends well or not. -/
structure Thinned (base : Location) (ps : List Path) (st : Session × Tree)
    (w : Written (Session × Tree)) : Prop where
  /-- files may go, and the others stay what they were -/
  file : ∀ loc c, w.state.2.content? loc = some c → st.2.content? loc = some c
  /-- the record lists nothing new -/
  listed : ∀ key x, w.state.1.record.find? key = some x → st.1.record.find? key = some x
  /-- if it ends well, the sources are not listed any more -/
  gone : w.result = .ok () → ∀ p ∈ ps, w.state.1.record.find? p.parts = none

/-- Discarding on an honest disk is of this kind. By induction on the list of paths. -/
theorem thinned_discard (hdisk : disk.Honest) {s : Session} (hb : s.base = some base)
    (ps : List Path) : Thinned base ps (s, t) (discard disk s t ps) := by
  induction ps generalizing s t with
  | nil => exact ⟨fun _ _ => id, fun _ _ => id, fun _ p hp => absurd hp List.not_mem_nil⟩
  | cons p rest ih =>
    obtain ⟨res, t', hdelete, hrest⟩ := discard_cases disk s t p rest
    rw [hb] at hdelete
    have hfile : ∀ loc c, t'.content? loc = some c → t.content? loc = some c :=
      fun loc c => hdisk.content?_delete hdelete
    rcases hrest with ⟨-, dropped, hbase, hrecord, hresult, hstate⟩ | ⟨e, hresult, hstate⟩
    · have hdropped : Thinned base rest (dropped, t') (discard disk dropped t' rest) :=
        ih (hbase.trans hb)
      -- what is forgotten stays forgotten, since nothing new is listed
      have hlisted : ∀ key x,
          (discard disk dropped t' rest).state.1.record.find? key = some x →
            key ≠ p.parts ∧ s.record.find? key = some x := by
        intro key x hx
        have hold := hdropped.listed key x hx
        rw [hrecord] at hold
        exact Record.find?_of_forget hold
      constructor
      · intro loc c hc
        rw [hstate] at hc
        exact hfile loc c (hdropped.file loc c hc)
      · intro key x hx
        rw [hstate] at hx
        exact (hlisted key x hx).2
      · intro hok q hq
        rw [hresult] at hok
        rw [hstate]
        rcases List.mem_cons.1 hq with rfl | hq
        · rw [Option.eq_none_iff_forall_not_mem]
          exact fun x hx => (hlisted _ x hx).1 rfl
        · exact hdropped.gone hok q hq
    · constructor
      · intro loc c hc
        rw [hstate] at hc
        exact hfile loc c hc
      · intro key x hx
        rwa [hstate] at hx
      · intro hok
        rw [hresult] at hok
        cases hok

/-- Once the stale sources are gone, the record lists the places of units only. -/
theorem Faithful.discard {t₀ : Tree} {s : Session} (h : Faithful pool base names t₀ (s, t))
    (hdisk : disk.Honest) (hok : (discard disk s t s.stale).result = .ok ()) :
    Lists pool (discard disk s t s.stale).state.1.record ∧
      (∀ key x, (discard disk s t s.stale).state.1.record.find? key = some x →
        ∃ u ∈ pool, u.path.parts = key) ∧
      Truthful pool base names (discard disk s t s.stale).state.2
        (discard disk s t s.stale).state.1.record := by
  have hthin : Thinned base s.stale (s, t) (Session.discard disk s t s.stale) :=
    thinned_discard hdisk h.base_eq _
  refine ⟨h.lists.mono hthin.listed, fun key x hx => ?_, h.truthful.mono (fun digest hd => ?_)
    fun c hc => hthin.file _ c hc⟩
  · rcases h.known key x (hthin.listed key x hx) with ⟨p, hp, rfl⟩ | hu
    · -- what was listed before is gone, unless it was asked for
      by_cases hasked : p.parts ∈ s.attempted
      · exact h.attempted p.parts hasked
      · rw [hthin.gone hok p (List.mem_filter.2 ⟨hp, decide_eq_true hasked⟩)] at hx
        cases hx
    · exact hu
  · obtain ⟨x, hx, rfl⟩ := Option.map_eq_some_iff.1 hd
    rw [hthin.listed _ x hx]
    rfl

/-! ## Rounds that end or do not

The record on the disk is what the next round believes, and it is written in one go at the end. So
there are three cases. The round stopped before that, and the old record is there: then the file
must be as it was, or not be listed. The record was written, and the session was faithful: then the
new one is sound. It broke off in the middle: then the beginning of a sound record is there.
`LeavesAlone` is the condition of the first case, and it is the only one there is. -/

/-- If the record is the one that was there before, then the file is too, or the record does not
list it. -/
def LeavesAlone (base : Location) (names : List String) (t t' : Tree) : Prop :=
  t'.content? (base ++ [Record.entryName]) = t.content? (base ++ [Record.entryName]) →
    t'.content? (base ++ names) = t.content? (base ++ names) ∨
      ∀ text : String, t.content? (base ++ [Record.entryName]) = some text.toUTF8 →
        (Record.read text).find? (names.map .name) = none

/-- A round that leaves the file alone leaves the root sound, if the record is the old one. -/
theorem LeavesAlone.sound_at (h : LeavesAlone base names t t') (hs : Sound pool base names t)
    {text : String} (hold : t.content? (base ++ [Record.entryName]) = some text.toUTF8)
    (hnew : t'.content? (base ++ [Record.entryName]) = some text.toUTF8) :
    Lists pool (Record.read text) ∧ Truthful pool base names t' (Record.read text) := by
  obtain ⟨hlists, htruthful⟩ := hs text hold
  refine ⟨hlists, ?_⟩
  rcases h (hnew.trans hold.symm) with hfile | hunlisted
  · exact htruthful.mono (fun _ => id) fun c hc => by rwa [hfile] at hc
  · intro digest c hd
    rw [hunlisted text hold] at hd
    cases hd

/-- The end of a session leaves the root sound if it goes well. If it fails, then the record is the
old one or the beginning of the new one, and the new one is sound however much of it there is. -/
theorem Faithful.finish {t₀ : Tree} {st : Session × Tree} (h : Faithful pool base names t₀ st)
    (hpool : Emittable pool) (hu : u ∈ pool) (hp : u.path.parts = names.map .name)
    (hdisk : disk.Honest) (hs : Sound pool base names t₀)
    (hleft : (Session.finish disk st.1 st.2).result = .ok () ∨
      LeavesAlone base names t₀ (Session.finish disk st.1 st.2).state.2) :
    Sound pool base names (Session.finish disk st.1 st.2).state.2 := by
  obtain ⟨s, t⟩ := st
  have hb : s.base = some base := h.base_eq
  have hthin : Thinned base s.stale (s, t) (Session.discard disk s t s.stale) :=
    thinned_discard hdisk hb _
  have hold : ∀ c, (Session.discard disk s t s.stale).state.2.content?
      (base ++ [Record.entryName]) = some c →
        t₀.content? (base ++ [Record.entryName]) = some c :=
    fun c hc => h.recorded ▸ hthin.file _ c hc
  intro text htext
  rcases finish_cases disk s t with ⟨e, -, hresult, hstate⟩ | ⟨hok, hsave⟩
  · have hleft := hleft.resolve_left (by rw [hresult]; exact nofun)
    rw [hstate] at htext hleft ⊢
    exact hleft.sound_at hs (hold _ htext) htext
  · obtain ⟨hlists, hall, htruthful⟩ := h.discard hdisk hok
    rw [hb] at hsave
    have hne : base ++ names ≠ base ++ ([] ++ [Record.entryName]) := by
      intro he
      rw [List.append_cancel_left he] at hp
      exact path_parts_ne_record (hpool.read u hu) hp
    have hfile : (Session.finish disk s t).state.2.content? (base ++ names) =
        (Session.discard disk s t s.stale).state.2.content? (base ++ names) :=
      hdisk.content?_save (Or.inr ⟨[], _, Record.leads_fileName.parts_eq, hne⟩) hsave
    rcases hresult : (Session.finish disk s t).result with e | ⟨⟨⟩⟩ <;> rw [hresult] at hsave
    · rcases hdisk.content?_save_error hsave htext with hbefore | ⟨rest, hrest⟩
      · have hleft := hleft.resolve_left (by rw [hresult]; exact nofun)
        exact hleft.sound_at hs (hold _ hbefore) htext
      · exact htruthful.read_of_prefix hlists hpool hall hu hp hfile
          (isPrefix_of_toUTF8_append hrest)
    · have hnew := hdisk.content?_save_ok Record.leads_fileName.parts_eq hsave
      rw [List.nil_append] at hnew
      have hsame := Option.some.inj (htext.symm.trans hnew)
      rw [← ByteArray.append_empty (b := text.toUTF8)] at hsame
      exact htruthful.read_of_prefix hlists hpool hall hu hp hfile
        (isPrefix_of_toUTF8_append hsame)

/-- A round is under way: it has opened its root, which turned the tree into `t₀`, and stands at
`st` now. -/
def Underway (pool : List SourceUnit) (here : Location) (root : Path) (base : Location)
    (names : List String) (t t₀ : Tree) (st : Session × Tree) : Prop :=
  ∃ s, start here t root = (.ok s, t₀) ∧ s.base = some base ∧
    Relation.ReflTransGen (Step pool base names) (s, t₀) st

/-- What can happen to a root: rounds, which end well or not, and others that change files, but not
the record and not the file. -/
inductive Visit (pool : List SourceUnit) (here : Location) (root : Path) (base : Location)
    (names : List String) : Tree → Tree → Prop
  /-- the root cannot be opened -/
  | refused {t t' : Tree} {e : Fault} (h : start here t root = (.error e, t')) :
    Visit pool here root base names t t'
  /-- the round ends well -/
  | finished {t t₀ : Tree} {st : Session × Tree} {disk : Disk}
    (h : Underway pool here root base names t t₀ st) (hdisk : disk.Honest)
    (hok : (finish disk st.1 st.2).result = .ok ()) :
    Visit pool here root base names t (finish disk st.1 st.2).state.2
  /-- the end fails -/
  | failed {t t₀ : Tree} {st : Session × Tree} {disk : Disk} {e : Fault}
    (h : Underway pool here root base names t t₀ st) (hdisk : disk.Honest)
    (herror : (finish disk st.1 st.2).result = .error e)
    (hleft : LeavesAlone base names t₀ (finish disk st.1 st.2).state.2) :
    Visit pool here root base names t (finish disk st.1 st.2).state.2
  /-- the round stops before its end -/
  | stopped {t t₀ : Tree} {st : Session × Tree} (h : Underway pool here root base names t t₀ st)
    (hleft : LeavesAlone base names t₀ st.2) : Visit pool here root base names t st.2
  /-- others change files -/
  | others {t t' : Tree} (hspares : Spares base names t t') :
    Visit pool here root base names t t'

/-- A round under way on a sound root is faithful, and the root was sound when it was opened. -/
theorem Sound.underway {t₀ : Tree} {st : Session × Tree} (hs : Sound pool base names t)
    (hpool : Emittable pool) (h : Underway pool here root base names t t₀ st) :
    Sound pool base names t₀ ∧ Faithful pool base names t₀ st := by
  obtain ⟨s, hstart, hb, hsteps⟩ := h
  exact ⟨(spares_of_sameFiles (sameFiles_of_start hstart)).sound hs,
    (hs.start hstart hb).steps hpool hsteps⟩

/-- Every visit leaves the root sound. -/
theorem Sound.visit (hs : Sound pool base names t) (hpool : Emittable pool) (hu : u ∈ pool)
    (hp : u.path.parts = names.map .name) (h : Visit pool here root base names t t') :
    Sound pool base names t' := by
  cases h with
  | refused h => exact (spares_of_sameFiles (sameFiles_of_start h)).sound hs
  | finished h hdisk hok =>
    obtain ⟨hs₀, hfaithful⟩ := hs.underway hpool h
    exact hfaithful.finish hpool hu hp hdisk hs₀ (Or.inl hok)
  | failed h hdisk _ hleft =>
    obtain ⟨hs₀, hfaithful⟩ := hs.underway hpool h
    exact hfaithful.finish hpool hu hp hdisk hs₀ (Or.inr hleft)
  | stopped h hleft =>
    obtain ⟨hs₀, hfaithful⟩ := hs.underway hpool h
    intro text htext
    exact hleft.sound_at hs₀ (hfaithful.recorded ▸ htext) htext
  | others hspares => exact hspares.sound hs

/-- So do any number of visits, by induction. -/
theorem Sound.visits (hs : Sound pool base names t) (hpool : Emittable pool) (hu : u ∈ pool)
    (hp : u.path.parts = names.map .name)
    (h : Relation.ReflTransGen (Visit pool here root base names) t t') :
    Sound pool base names t' := by
  induction h with
  | refl => exact hs
  | tail _ hvisit ih => exact ih.visit hpool hu hp hvisit

/-! ### Rounds on the sound disk

What is said about visits is applied to rounds that are run: one that goes well is a visit, and so
is one that stops before it comes to the file. -/

/-- A round that stops before its end, after it has taken the units. -/
def stopped? (here : Location) (root : Path) (t : Tree) (us : List SourceUnit) :
    Option (Session × Tree) :=
  match start here t root with
  | (.error _, _) => none
  | (.ok s, t₀) =>
    let w := (sink .sound).writeAll (s, t₀) us
    if w.isComplete then some w.state else none

/-- Writing units keeps the root where it is. -/
theorem base_writeAll (disk : Disk) (st : Session × Tree) (us : List SourceUnit) :
    ((sink disk).writeAll st us).state.1.base = st.1.base := by
  induction us generalizing st with
  | nil => rfl
  | cons u us ih =>
    refine (ih ((sink disk).write st u).state).trans ?_
    simp only [sink, write]
    split
    · rfl
    · split <;> rfl

/-- A round that stopped has opened its root and was given the units. -/
theorem exists_of_stopped? {us : List SourceUnit} {st : Session × Tree}
    (h : stopped? here root t us = some st) (hb : st.1.base = some base) :
    ∃ s t₀, start here t root = (.ok s, t₀) ∧ s.base = some base ∧
      ((sink .sound).writeAll (s, t₀) us).state = st := by
  rw [stopped?] at h
  split at h
  · cases h
  · rename_i s t₀ hstart
    obtain ⟨-, hst⟩ := Option.ite_none_right_eq_some.1 h
    obtain rfl := Option.some.inj hst
    exact ⟨s, t₀, hstart, (base_writeAll _ _ _).symm.trans hb, rfl⟩

/-- To be given units is to go on. -/
theorem steps_writeAll (hdisk : disk.Honest) {us : List SourceUnit} (hus : us ⊆ pool)
    (st : Session × Tree) :
    Relation.ReflTransGen (Step pool base names) st ((sink disk).writeAll st us).state := by
  induction us generalizing st with
  | nil => exact .refl
  | cons u us ih =>
    exact .head (.write hdisk (hus List.mem_cons_self))
      (ih (fun v hv => hus (List.mem_cons_of_mem _ hv)) _)

/-- It was under way when it stopped. -/
theorem underway_of_stopped? {us : List SourceUnit} {st : Session × Tree} (hus : us ⊆ pool)
    (h : stopped? here root t us = some st) (hb : st.1.base = some base) :
    ∃ t₀, Underway pool here root base names t t₀ st := by
  obtain ⟨s, t₀, hstart, hs, rfl⟩ := exists_of_stopped? h hb
  exact ⟨t₀, s, hstart, hs, steps_writeAll Disk.sound_honest hus _⟩

/-- A round that goes well is a visit. -/
theorem visit_of_round? {us : List SourceUnit} {t₀ : Tree} (hus : us ⊆ pool)
    (hopen : Opens here root t t₀ base) (h : round? here root t us = some t') :
    Visit pool here root base names t t' := by
  obtain ⟨s, hstart, hb⟩ := hopen
  obtain ⟨s', t₀', hstart', -, hok, rfl⟩ := round?_eq_some_iff.1 h
  obtain ⟨hs, rfl⟩ := Prod.mk.inj (hstart.symm.trans hstart')
  obtain rfl := Except.ok.inj hs
  exact .finished ⟨s, hstart, hb, steps_writeAll Disk.sound_honest hus _⟩ Disk.sound_honest hok

/-- Units at other paths leave the file alone, on any honest disk. -/
theorem content?_writeAll (hdisk : disk.Honest) {us : List SourceUnit}
    (hus : ∀ u ∈ us, u.name.IsRead ∧ u.path.parts ≠ names.map .name) {st : Session × Tree}
    (hb : st.1.base = some base) :
    ((sink disk).writeAll st us).state.2.content? (base ++ names) =
      st.2.content? (base ++ names) := by
  induction us generalizing st with
  | nil => rfl
  | cons u us ih =>
    obtain ⟨hread, hne⟩ := hus u List.mem_cons_self
    have hfirst : ((sink disk).write st u).state.1.base = some base ∧
        ((sink disk).write st u).state.2.content? (base ++ names) =
          st.2.content? (base ++ names) := by
      rw [sink]
      rcases write_cases disk st.2 u hb with
        ⟨-, -, -, hst⟩ | ⟨t', hsave, -, hst⟩ | ⟨e, t', hsave, -, hst⟩ <;> rw [hst]
      · exact ⟨hb, rfl⟩
      · exact ⟨hb, content?_save_unit hdisk hread hne hsave⟩
      · exact ⟨hb, content?_save_unit hdisk hread hne hsave⟩
    exact (ih (fun v hv => hus v (List.mem_cons_of_mem _ hv)) hfirst.1).trans hfirst.2

/-- So a round that stops before it comes to the file does no harm. -/
theorem visit_of_stopped? {us : List SourceUnit} {st : Session × Tree} (hpool : Emittable pool)
    (hus : us ⊆ pool) (hne : ∀ u ∈ us, u.path.parts ≠ names.map .name)
    (h : stopped? here root t us = some st) (hb : st.1.base = some base) :
    Visit pool here root base names t st.2 := by
  obtain ⟨s, t₀, hstart, hs, rfl⟩ := exists_of_stopped? h hb
  refine .stopped ⟨s, hstart, hs, steps_writeAll Disk.sound_honest hus _⟩ fun _ => Or.inl ?_
  exact content?_writeAll Disk.sound_honest (fun u hu => ⟨hpool.read u (hus hu), hne u hu⟩) hs

/-! ## What a write answers

A write that goes well has saved the text of its unit, or has found the unit up to date. In the
second case the record has the digest of that text and a file is there, and since the session is
faithful the file holds a text with this digest. Among the units digests tell texts apart, so it is
the text. -/

/-- A faithful session that takes a unit has its text in the file afterwards. -/
theorem Faithful.content?_of_write {t₀ : Tree} {s : Session}
    (h : Faithful pool base names t₀ (s, t)) (hpool : Emittable pool) (hu : u ∈ pool)
    (hp : u.path.parts = names.map .name) (hdisk : disk.Honest)
    (hok : (Session.write disk s t u).result = .ok ()) :
    (Session.write disk s t u).state.2.content? (base ++ names) = some u.render.toUTF8 := by
  obtain ⟨dirs, file, -, rfl⟩ := names_of_path_parts (hpool.read u hu) hp
  rcases write_cases disk t u h.base_eq with
    ⟨hdigest, hfile, -, hst⟩ | ⟨t', hsave, -, hst⟩ | ⟨e, t', -, hresult, -⟩
  · -- the record has the digest of the text, so the file has a text with that digest
    obtain ⟨-, c, hc⟩ := Tree.isFile_eq_true rfl rfl hp hfile
    rw [List.append_assoc, ← Tree.content?_eq_some_iff] at hc
    rw [Record.digest?, hp] at hdigest
    obtain ⟨v, hv, rfl, hsame⟩ := h.truthful _ c hdigest hc
    rw [hst, hc, hpool.render_eq u hu v hv hsame]
  · rw [hst]
    exact hdisk.content?_save_ok hp hsave
  · rw [hresult] at hok
    cases hok

/-- **A write that goes well leaves the text of its unit in the file**, whatever happened to the
root since it had no record. Disks may have failed at any operation, rounds may have stopped or
have failed in the end, and others may have changed other files. Only one thing must not have
happened: an unfinished round that changed the file, and left a record that lists it. The names are
those of the path of the unit; a path that is not made of names is never written, see
`write_root`. -/
theorem text_after_write {t₀ t₁ t₂ : Tree} {s : Session} (hpool : Emittable pool) (hu : u ∈ pool)
    (hp : u.path.parts = names.map .name)
    (hclean : t.content? (base ++ [Record.entryName]) = none)
    (hvisits : Relation.ReflTransGen (Visit pool here root base names) t t₀)
    (hround : Underway pool here root base names t₀ t₁ (s, t₂)) (hdisk : disk.Honest)
    (hok : (write disk s t₂ u).result = .ok ()) :
    (write disk s t₂ u).state.2.content? (base ++ names) = some u.render.toUTF8 := by
  have hsound : Sound pool base names t := by
    intro text htext
    rw [hclean] at htext
    cases htext
  obtain ⟨-, hfaithful⟩ := (hsound.visits hpool hu hp hvisits).underway hpool hround
  exact hfaithful.content?_of_write hpool hu hp hdisk hok

/-- A unit is written again after a round that stopped when it had written another one. -/
theorem component_text_after_write : ∃ t₁ st₂ st₃,
    round? [] ⟨"out"⟩ .empty [emptyComponent "A"] = some t₁ ∧
      stopped? [] ⟨"out"⟩ t₁ [emptyComponent "B"] = some st₂ ∧
      stopped? [] ⟨"out"⟩ st₂.2 [] = some st₃ ∧
      (write .sound st₃.1 st₃.2 (emptyComponent "A")).result = .ok () ∧
      (write .sound st₃.1 st₃.2 (emptyComponent "A")).state.2.content?
        (["out"] ++ ["app", "A.java"]) = some (emptyComponent "A").render.toUTF8 := by
  have hpool : Emittable [emptyComponent "A", emptyComponent "B"] := by
    refine ⟨fun u hu => ?_, by decide +kernel, by decide +kernel⟩
    rcases List.mem_pair.1 hu with rfl | rfl
    · exact ⟨"app.A", rfl⟩
    · exact ⟨"app.B", rfl⟩
  have hrun : ((round? [] ⟨"out"⟩ .empty [emptyComponent "A"]).bind fun t₁ =>
      ((stopped? [] ⟨"out"⟩ t₁ [emptyComponent "B"]).filter fun st₂ =>
        decide (st₂.1.base = some ["out"])).bind fun st₂ =>
          (stopped? [] ⟨"out"⟩ st₂.2 []).filter fun st₃ => decide (st₃.1.base = some ["out"] ∧
            (write .sound st₃.1 st₃.2 (emptyComponent "A")).result = .ok ())).isSome = true := by
    decide +kernel
  obtain ⟨st₃, hrun⟩ := Option.isSome_iff_exists.1 hrun
  obtain ⟨t₁, hround, hrun⟩ := Option.bind_eq_some_iff.1 hrun
  obtain ⟨st₂, hrun₂, hrun⟩ := Option.bind_eq_some_iff.1 hrun
  obtain ⟨hstopped, hb₂⟩ := Option.filter_eq_some_iff.1 hrun₂
  obtain ⟨hopened, hrun₃⟩ := Option.filter_eq_some_iff.1 hrun
  obtain ⟨hb₃, hok⟩ := of_decide_eq_true hrun₃
  have hopen : Opens [] ⟨"out"⟩ .empty (.entry "out" (.directory .empty) .empty) ["out"] :=
    ⟨fresh ⟨"out"⟩ ["out"] ∅, rfl, rfl⟩
  have hfirst : Visit [emptyComponent "A", emptyComponent "B"] [] ⟨"out"⟩ ["out"]
      ["app", "A.java"] .empty t₁ :=
    visit_of_round? (List.cons_subset_cons _ (List.nil_subset _)) hopen hround
  have hsecond : Visit [emptyComponent "A", emptyComponent "B"] [] ⟨"out"⟩ ["out"]
      ["app", "A.java"] t₁ st₂.2 :=
    visit_of_stopped? hpool (List.subset_cons_self _ _) (by decide +kernel) hstopped
      (of_decide_eq_true hb₂)
  obtain ⟨t₀, hround₃⟩ := underway_of_stopped? (List.nil_subset _) hopened hb₃
  exact ⟨t₁, st₂, st₃, hround, hstopped, hopened, hok,
    text_after_write hpool List.mem_cons_self (by decide +kernel) rfl
      ((Relation.ReflTransGen.single hfirst).tail hsecond) hround₃ Disk.sound_honest hok⟩

/-! ## An unfinished round that does harm

The condition on unfinished rounds is needed. In the history below the first round is recorded, the
second one changes the file and stops, and the third one reads the record of the first. Every disk
is sound, and nothing is said to have failed. -/

/-- A component with nothing in it, as a class or as an interface. -/
def mainComponent (kind : UnitKind) : SourceUnit := .blank .component ⟨"app", "Main"⟩ kind

/-- **An unfinished round can poison a later one.** A round writes an interface and ends. The next
one writes a class in its place and stops. Then the interface is taken again without a fault, since
the record still has its digest, but the file has the text of the class. -/
theorem unfinished_round_poisons : ∃ t₁ st₂ st₃,
    round? [] ⟨"out"⟩ .empty [mainComponent .interface] = some t₁ ∧
      stopped? [] ⟨"out"⟩ t₁ [mainComponent .class] = some st₂ ∧
      stopped? [] ⟨"out"⟩ st₂.2 [mainComponent .interface] = some st₃ ∧
      st₃.1.unchanged = [(mainComponent .interface).path] ∧
      st₃.2.content? ["out", "app", "Main.java"] =
        some (mainComponent .class).render.toUTF8 ∧
      (mainComponent .class).render ≠ (mainComponent .interface).render := by
  have hrun : ((round? [] ⟨"out"⟩ .empty [mainComponent .interface]).bind fun t₁ =>
      (stopped? [] ⟨"out"⟩ t₁ [mainComponent .class]).bind fun st₂ =>
        (stopped? [] ⟨"out"⟩ st₂.2 [mainComponent .interface]).filter fun st₃ =>
          decide (st₃.1.unchanged = [(mainComponent .interface).path] ∧
            st₃.2.content? ["out", "app", "Main.java"] =
              some (mainComponent .class).render.toUTF8)).isSome = true := by
    decide +kernel
  obtain ⟨st₃, hrun⟩ := Option.isSome_iff_exists.1 hrun
  obtain ⟨t₁, hround, hrun⟩ := Option.bind_eq_some_iff.1 hrun
  obtain ⟨st₂, hstopped, hrun⟩ := Option.bind_eq_some_iff.1 hrun
  obtain ⟨hlater, hstate⟩ := Option.filter_eq_some_iff.1 hrun
  obtain ⟨hunchanged, hcontent⟩ := of_decide_eq_true hstate
  exact ⟨t₁, st₂, st₃, hround, hstopped, hlater, hunchanged, hcontent, by decide +kernel⟩

end Session

end PlatformWiring
