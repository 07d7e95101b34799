import PlatformWiring.Proofs.Output.Unfinished

/-!
# Opening a root again

What a session leaves in the record of an empty root is what the next one loads, the same sources
in the same order with the same digests, exactly if no path in it holds a line feed. Then the next
session may delete nothing but what was written before. A line feed breaks the line of a path in
two, and the second half can name any file below the root.

Disks may fail at any operation as long as the record is saved in the end, and nothing is assumed
about the digests.
-/

namespace PlatformWiring

namespace Session

variable {pool us : List SourceUnit} {here base : Location} {root : Path} {t t₀ t' : Tree}
  {r : Record} {s : Session} {st : Session × Tree} {u : SourceUnit} {disk : Disk}

/-! ## The first session below a root

A session that finds no record has nothing to delete, so all it does is write units and then its
record. Whatever it lists it has written itself, under a path that is made from a name that was
read. The only way for such a path to make trouble on a line of its own is a line feed. -/

/-- The session is given the units and ends. -/
def through (disk : Disk) (st : Session × Tree) (us : List SourceUnit) :
    Written (Session × Tree) :=
  finish disk ((sink disk).writeAll st us).state.1 ((sink disk).writeAll st us).state.2

/-- Where a session stands that found no record when its root was opened in the tree `t₀`. What it
records then are places of units that it was given, each under the path that was written, so nothing
that is listed later can have come from anywhere else. -/
structure First (pool : List SourceUnit) (base : Location) (t₀ : Tree) (st : Session × Tree) :
    Prop where
  /-- the root is where it was -/
  base_eq : st.1.base = some base
  /-- nothing was listed -/
  previous_eq : st.1.previous = []
  /-- the directories are still there -/
  keeps : t₀.Keeps st.2
  /-- the record lists sources -/
  lists : Lists pool st.1.record
  /-- it lists the places of units only -/
  known : ∀ key x, st.1.record.find? key = some x → ∃ u ∈ pool, u.path.parts = key
  /-- under the paths that were written -/
  written : st.1.record.paths ⊆ st.1.written

/-- Directories stay where they are when a unit is saved, whether it succeeds or not. -/
theorem keeps_save_unit (hdisk : disk.Honest) (hread : u.name.IsRead) {text : String}
    {res : Except Fault Unit} (hsave : disk.save t (some base) u.path text = (res, t')) :
    t.Keeps t' := by
  rcases res with e | ⟨⟨⟩⟩
  · exact (hdisk.save_error hsave).keeps
  · rcases u.path_parts hread with ⟨rest, hroot⟩ | ⟨dirs, file, -, hp⟩
    · exact absurd (hdisk.save_ok hsave) (Tree.saveText_root rfl hroot _)
    · exact Tree.saveText_keeps rfl rfl hp (hdisk.save_ok hsave)

/-- Every write keeps this up, whether it goes well or not. -/
theorem First.write (h : First pool base t₀ st) (hdisk : disk.Honest) (hread : u.name.IsRead)
    (hu : u ∈ pool) : First pool base t₀ (Session.write disk st.1 st.2 u).state := by
  obtain ⟨s, t⟩ := st
  rcases write_cases disk t u h.base_eq with
    ⟨-, -, -, hst⟩ | ⟨t', hsave, -, hst⟩ | ⟨e, t', hsave, -, hst⟩ <;> rw [hst]
  · exact ⟨h.base_eq, h.previous_eq, h.keeps, h.lists, h.known, h.written⟩
  · refine ⟨h.base_eq, h.previous_eq, h.keeps.trans (keeps_save_unit hdisk hread hsave),
      h.lists.note hu _, fun key x hx => ?_, fun p hp => ?_⟩
    · rcases Record.note_cases hx with hx | ⟨hkey, -⟩
      · exact h.known key x hx
      · exact ⟨u, hu, hkey.symm⟩
    · rcases Record.mem_paths_of_note hp with hp | rfl
      · exact List.mem_append_left _ (h.written hp)
      · simp
  · have hforget : ∀ key x, (s.record.forget u.path).find? key = some x →
        s.record.find? key = some x := fun key x hx => (Record.find?_of_forget hx).2
    refine ⟨h.base_eq, h.previous_eq, h.keeps.trans (keeps_save_unit hdisk hread hsave),
      h.lists.mono hforget, fun key x hx => h.known key x (hforget key x hx), fun p hp => ?_⟩
    obtain ⟨key, x, hx, rfl⟩ := Record.mem_paths_iff.1 hp
    exact h.written (Record.mem_paths_iff.2 ⟨key, x, hforget key x hx, rfl⟩)

/-- So does a list of writes. By induction on the list. -/
theorem First.writeAll (h : First pool base t₀ st) (hdisk : disk.Honest)
    (hread : ∀ u ∈ us, u.name.IsRead) (hus : us ⊆ pool) :
    First pool base t₀ ((sink disk).writeAll st us).state := by
  induction us generalizing st with
  | nil => exact h
  | cons u us ih =>
    exact ih (h.write hdisk (hread u List.mem_cons_self) (hus List.mem_cons_self))
      (fun v hv => hread v (List.mem_cons_of_mem u hv)) fun v hv => hus (List.mem_cons_of_mem u hv)

/-- Where nothing is stale a session that ends only saves its record. -/
theorem finish_of_stale_eq_nil (disk : Disk) (s : Session) (t : Tree) (h : s.stale = []) :
    finish disk s t =
      ⟨({ s with previous := s.record.paths },
          (disk.save t s.base Record.fileName s.record.write).2),
        (disk.save t s.base Record.fileName s.record.write).1, []⟩ := by
  rw [finish, h]
  rfl

/-- Where nothing was listed nothing is stale, so such a session ends by saving its record and does
nothing else. -/
theorem finish_of_previous_eq_nil (disk : Disk) (s : Session) (t : Tree)
    (h : s.previous = []) :
    (finish disk s t).state.1.record = s.record ∧ (finish disk s t).state.1.written = s.written ∧
      disk.save t s.base Record.fileName s.record.write =
        ((finish disk s t).result, (finish disk s t).state.2) := by
  have hstale : s.stale = [] := by rw [stale, h, List.filter_nil]
  rw [finish_of_stale_eq_nil disk s t hstale]
  exact ⟨rfl, rfl, rfl⟩

/-- When such a session has ended, the root can be opened again, and the text of its record is
read. -/
theorem First.finish (h : First pool base t₀ (s, t)) (hdisk : disk.Honest)
    (hlocate : t₀.locateDirectory (.working here) root = .ok base)
    (hok : (Session.finish disk s t).result = .ok ()) :
    start here (Session.finish disk s t).state.2 root =
      (.ok (fresh root base (Record.read s.record.write)), (Session.finish disk s t).state.2) := by
  obtain ⟨-, -, hsave⟩ := finish_of_previous_eq_nil disk s t h.previous_eq
  have hbase : s.base = some base := h.base_eq
  rw [hok, hbase] at hsave
  have hsave := hdisk.save_ok hsave
  have hkeeps := h.keeps.trans (keeps_of_save_record hsave)
  have hreachable := hkeeps.reachable (Tree.reachable_of_locateDirectory rfl hlocate)
  rw [start_of_locateDirectory (Tree.locateDirectory_of_keeps hkeeps rfl hlocate),
    loadRecord_of_standing? hreachable (standing?_record_of_save hsave)]
  rfl

/-- A record of such a session is read back as it was written exactly if no path in it holds a line
feed. Without one its lines are legible. With one it lists a path that no record can be read with,
since paths are read from lines. -/
theorem First.read_write_iff (h : First pool base t₀ st) (hread : ∀ u ∈ pool, u.name.IsRead) :
    Record.read st.1.record.write = st.1.record ↔
      ∀ p ∈ st.1.record.paths, '\n' ∉ p.text.toList := by
  constructor
  · intro he p hp
    rw [← he] at hp
    exact Record.feed_not_mem_of_mem_paths_read hp
  · exact fun hfeed => Record.read_write (h.lists.legible_of_feed_not_mem hread h.known hfeed)

/-- **A record is loaded as it was left exactly if no path in it holds a line feed.** A session
opens a root without a record, it is given units whose names were read, and it ends well. Then the
root can be opened again. If no recorded path holds a line feed, then the next session has the same
record, in the same order and with the same digests, and all that it takes for old sources was
written; otherwise its record is another one. -/
theorem reopened_record_iff {w : Written (Session × Tree)} (hdisk : disk.Honest)
    (hopen : start here t root = (.ok s, t₀)) (hb : s.base = some base)
    (hempty : t₀.content? (base ++ [Record.entryName]) = none)
    (hread : ∀ u ∈ us, u.name.IsRead) (hw : through disk (s, t₀) us = w)
    (hok : w.result = .ok ()) :
    ∃ s', start here w.state.2 root = (.ok s', w.state.2) ∧
      (s'.record = w.state.1.record ↔ ∀ p ∈ w.state.1.record.paths, '\n' ∉ p.text.toList) ∧
      (s'.record = w.state.1.record → s'.previous ⊆ w.state.1.written) := by
  subst hw
  have hopens : Opens here root t t₀ base := ⟨s, hopen, hb⟩
  have hnone : ∀ c, t₀.standing? (base ++ [Record.entryName]) ≠ some (.file c) := by
    intro c hc
    rw [Tree.content?_eq_some_iff.2 hc] at hempty
    cases hempty
  have hfirst : First us base t₀ (s, t₀) := by
    obtain ⟨base', r, -, hload, rfl⟩ := start_ok hopen
    obtain rfl : base' = base := Option.some.inj hb
    rw [hopens.loadRecord_eq hnone] at hload
    cases hload
    exact ⟨rfl, rfl, .refl _, lists_empty, nofun, List.nil_subset _⟩
  have hall := hfirst.writeAll hdisk hread (List.Subset.refl us)
  obtain ⟨hrecord, hwritten, -⟩ := finish_of_previous_eq_nil disk _
    ((sink disk).writeAll (s, t₀) us).state.2 hall.previous_eq
  refine ⟨_, hall.finish hdisk hopens.locateDirectory hok, ?_, fun he => ?_⟩
  · rw [through, hrecord]
    exact hall.read_write_iff hread
  · rw [through, hrecord] at he
    have hread' : Record.read ((sink disk).writeAll (s, t₀) us).state.1.record.write =
        ((sink disk).writeAll (s, t₀) us).state.1.record := he
    rw [through, hwritten, fresh, hread']
    exact hall.written

/-! ## One component, with and without a line feed

Names of types are read from documents, and a document can put a line feed into a name. The second
component below does, and what stands behind the line feed looks like a line of the record. -/

/-- An output root in which nothing is. -/
def bareRoot : Tree := .entry "out" (.directory .empty) .empty

/-- Opening a root in an empty tree makes its directory. -/
theorem start_empty :
    start [] .empty ⟨"out"⟩ = (.ok (fresh ⟨"out"⟩ ["out"] ∅), bareRoot) := rfl

theorem content?_bareRoot (names : List String) :
    bareRoot.content? (["out"] ++ names) = none := by
  cases names with
  | nil => rfl
  | cons next rest =>
    rw [bareRoot, Tree.content?, List.singleton_append, Tree.entry?_cons, Tree.find?, if_pos rfl,
      Option.bind_some, Entry.at?_directory, Tree.entry?_cons]
    rfl

/-- The next session finds the component that was written. -/
theorem component_record_reopened : ∃ w s',
    through .sound (fresh ⟨"out"⟩ ["out"] ∅, bareRoot) [emptyComponent "A"] = w ∧
      start [] w.state.2 ⟨"out"⟩ = (.ok s', w.state.2) ∧ s'.record = w.state.1.record ∧
      s'.previous ⊆ w.state.1.written ∧ w.state.1.written = [⟨"app/A.java"⟩] := by
  have hread : ∀ u ∈ [emptyComponent "A"], u.name.IsRead := fun u hu =>
    ⟨"app.A", List.mem_singleton.1 hu ▸ rfl⟩
  have hok : (through .sound (fresh ⟨"out"⟩ ["out"] ∅, bareRoot) [emptyComponent "A"]).result =
      .ok () := by decide +kernel
  obtain ⟨s', hstart, hrecord, hprevious⟩ :=
    reopened_record_iff Disk.sound_honest start_empty rfl rfl hread rfl hok
  have hsame := hrecord.2 (by decide +kernel)
  exact ⟨_, s', rfl, hstart, hsame, hprevious hsame, by decide +kernel⟩

/-- A component whose name makes a second line in the record. -/
def forgingComponent : SourceUnit := .blank .component ⟨"app", "Main\n0 src/Notes"⟩ .interface

/-- Somebody writes notes below the root. -/
def takeNotes (t : Tree) : Changed :=
  t.saveText (.below (some ["out"])) ⟨"src/Notes.java"⟩ "class Notes \x7b\x7d\n"

/-- **A line feed in a name makes the record list a file that was never written.** The unit is
written and the round ends well. Then somebody writes notes at the path on the second line, and a
round without units deletes them. -/
theorem feed_forges_source : ∃ t₁ t₂ st,
    forgingComponent.name.IsRead ∧
      round? [] ⟨"out"⟩ .empty [forgingComponent] = some t₁ ∧ takeNotes t₁ = (.ok (), t₂) ∧
      stopped? [] ⟨"out"⟩ t₂ [] = some st ∧
      st.1.previous = [⟨"app/Main"⟩, ⟨"src/Notes.java"⟩] ∧
      (finish .sound st.1 st.2).result = .ok () ∧
      (finish .sound st.1 st.2).state.2.content? ["out", "src", "Notes.java"] = none := by
  have hrun : ((round? [] ⟨"out"⟩ .empty [forgingComponent]).bind fun t₁ =>
      (stopped? [] ⟨"out"⟩ (takeNotes t₁).2 []).filter fun st =>
        decide ((takeNotes t₁).1 = .ok () ∧
          st.1.previous = [⟨"app/Main"⟩, ⟨"src/Notes.java"⟩] ∧
          (finish .sound st.1 st.2).result = .ok () ∧
          (finish .sound st.1 st.2).state.2.content? ["out", "src", "Notes.java"] = none)).isSome
            = true := by
    decide +kernel
  obtain ⟨st, hrun⟩ := Option.isSome_iff_exists.1 hrun
  obtain ⟨t₁, hround, hrun⟩ := Option.bind_eq_some_iff.1 hrun
  obtain ⟨hopened, hrun⟩ := Option.filter_eq_some_iff.1 hrun
  obtain ⟨hsaved, hprevious, hok, hgone⟩ := of_decide_eq_true hrun
  exact ⟨t₁, _, st, ⟨"app.Main\n0 src/Notes", rfl⟩, hround, Prod.ext hsaved rfl, hopened, hprevious,
    hok, hgone⟩

end Session

end PlatformWiring
