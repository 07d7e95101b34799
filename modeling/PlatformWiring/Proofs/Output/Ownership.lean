import PlatformWiring.Proofs.Output.Attempts

/-!
# Which files a root owns

A round deletes the files that the record lists and that it was not given. So a file that lies
below the root and is not listed stays there for good: the root has lost it. A write that fails
takes its file off the record, but the file may still be there, with its old text or the beginning
of the new one, and the end of the round leaves it alone because it was asked for.

What follows is about any number of rounds on a root without files. Each write may meet another
disk, which may fail, and every round ends well. Then a file is listed exactly if the last write
that it was given, in whatever round, went well. The invariant of a round speaks of the last write
in that round only; what it says about the others is that their files are gone or were lost
before.
-/

namespace PlatformWiring

namespace Session

variable {here base : Location} {root : Path} {names : List String} {t t₀ t' : Tree} {r r' : Record}
  {s : Session} {st : Session × Tree} {u : SourceUnit} {disk : Disk} {as before : List Attempt}

/-! ## Rounds whose writes may fail

A `Course` gives each write its disk. The attempts are part of what a round results in, since what a
root owns is told by them, while the units that were asked for are not enough. -/

/-- What a round is given, and the disks that it meets. -/
structure Course where
  /-- the units, each with the disk that its write meets -/
  writes : List (Disk × SourceUnit)
  /-- the disk at the end -/
  last : Disk

/-- The disks do nothing that they are not asked for, the names were read, and the paths fit on a
line of the record. -/
structure Course.Fair (c : Course) : Prop where
  /-- a write may fail, but it changes no other file -/
  honest : ∀ w ∈ c.writes, w.1.Honest
  /-- the names were read -/
  read : ∀ w ∈ c.writes, w.2.name.IsRead
  /-- the paths fit on a line -/
  feed_not_mem : ∀ w ∈ c.writes, '\n' ∉ w.2.path.text.toList
  /-- at the end no file is said to be missing that is there -/
  candid : c.last.Candid

/-- A round on an output root: it is opened, it is given the units, some of which may fail, and the
session ends well. Nothing if the root cannot be opened or the end fails. -/
def ended? (here : Location) (root : Path) (t : Tree) (c : Course) : Option (Tree × List Attempt) :=
  match start here t root with
  | (.error _, _) => none
  | (.ok s, t₀) =>
    let (st, as) := writeEach (s, t₀) c.writes
    match finish c.last st.1 st.2 with
    | ⟨(_, t'), .ok (), _⟩ => some (t', as)
    | ⟨_, .error _, _⟩ => none

/-- Such rounds, one after the other. -/
def endedAll? (here : Location) (root : Path) (t : Tree) :
    List Course → Option (Tree × List Attempt)
  | [] => some (t, [])
  | c :: cs => do
    let (t₁, as) ← ended? here root t c
    let (t', bs) ← endedAll? here root t₁ cs
    return (t', as ++ bs)

/-- A round that ends well opens its root, makes its attempts, and ends without a fault. -/
theorem ended?_eq_some_iff {c : Course} : ended? here root t c = some (t', as) ↔
    ∃ s t₀ st, start here t root = (.ok s, t₀) ∧ writeEach (s, t₀) c.writes = (st, as) ∧
      (finish c.last st.1 st.2).result = .ok () ∧ (finish c.last st.1 st.2).state.2 = t' := by
  rw [ended?]
  rcases start here t root with ⟨e | s, t₀⟩
  · simp
  · rcases hwrites : writeEach (s, t₀) c.writes with ⟨st, bs⟩
    simp only [hwrites]
    rcases hfinish : finish c.last st.1 st.2 with ⟨⟨s', t''⟩, e | ⟨⟨⟩⟩, events⟩
    · simp only [reduceCtorEq, Prod.mk.injEq, Except.ok.injEq, false_iff, not_exists, not_and]
      rintro s₁ t₁ st₁ ⟨rfl, rfl⟩ hwrites'
      obtain ⟨rfl, rfl⟩ := Prod.mk.inj (hwrites.symm.trans hwrites')
      simp [hfinish]
    · simp only [Option.some.injEq, Prod.mk.injEq, Except.ok.injEq]
      constructor
      · rintro ⟨rfl, rfl⟩
        exact ⟨s, t₀, st, ⟨rfl, rfl⟩, hwrites, by rw [hfinish], by rw [hfinish]⟩
      · rintro ⟨s₁, t₁, st₁, ⟨rfl, rfl⟩, hwrites', -, hstate⟩
        obtain ⟨rfl, rfl⟩ := Prod.mk.inj (hwrites.symm.trans hwrites')
        rw [hfinish] at hstate
        exact ⟨hstate, rfl⟩

/-! ## One round

What a round leaves is told by its own attempts: at a path that was attempted the last one decides,
and a file without an attempt is gone if it was listed before and is what it was if not. So a round
hands on a record that lists sources and is read back as it was saved, which is what the next one
needs. -/

/-- The record can be read back, and it lists sources. -/
structure Proper (r : Record) : Prop where
  /-- it can be read back -/
  legible : r.Legible
  /-- it lists sources -/
  names : ∀ key x, r.find? key = some x →
    ∃ dirs file, SourceNames dirs file ∧ key = (dirs ++ [file]).map .name

theorem proper_empty : Proper ∅ where
  legible := Record.legible_empty
  names := fun _ _ h => by cases h

theorem Proper.path_parts (h : Proper r) {p : Path} (hp : p ∈ r.paths) :
    ∃ dirs file, p.parts = (dirs ++ [file]).map .name := by
  obtain ⟨key, x, hx, rfl⟩ := Record.mem_paths_iff.1 hp
  obtain ⟨dirs, file, -, hkey⟩ := h.names key x hx
  exact ⟨dirs, file, h.legible.key_eq key x hx ▸ hkey⟩

theorem Proper.feed_not_mem (h : Proper r) {p : Path} (hp : p ∈ r.paths) :
    '\n' ∉ p.text.toList := by
  obtain ⟨key, x, hx, rfl⟩ := Record.mem_paths_iff.1 hp
  exact (h.legible.line key x hx).feed_not_mem_path

/-- What a round with these attempts leaves that has found the record `r` in the tree `t₀`. -/
structure Leaves (base : Location) (t₀ : Tree) (r : Record) (as : List Attempt) (t' : Tree)
    (r' : Record) : Prop where
  /-- directories stay -/
  keeps : t₀.Keeps t'
  /-- the new record is on the disk -/
  load : loadRecord t' base = .ok r'
  /-- it lists sources -/
  proper : Proper r'
  /-- it lists those paths where the last attempt went well -/
  listed : ∀ key, (r'.find? key).isSome = true ↔
    ∃ a, lastAttempt as key = some a ∧ a.result = .ok ()
  /-- of the other files, those are gone that were listed before -/
  file : ∀ names : List String, names ≠ [Record.entryName] →
    lastAttempt as (names.map .name) = none → t'.content? (base ++ names) =
      if (r.find? (names.map .name)).isSome = true then none else t₀.content? (base ++ names)

/-- The end of a round with these attempts leaves this. -/
theorem AfterAttempts.leaves (h : AfterAttempts base t₀ r as (s, t)) (hr : Proper r)
    (hread : ∀ a ∈ as, a.unit.name.IsRead) (hfeed : ∀ a ∈ as, '\n' ∉ a.unit.path.text.toList)
    (hreachable : t₀.Reachable base) (hdisk : disk.Candid)
    (hok : (Session.finish disk s t).result = .ok ()) :
    ∃ r', Leaves base t₀ r as (Session.finish disk s t).state.2 r' := by
  have hclosed := h.finish hr.legible.keyed (fun p hp => Or.inr (hr.path_parts hp)) hreachable
    hdisk hok
  have hlegible := hclosed.legible_of_units hread (fun p hp => hr.feed_not_mem hp) hfeed
  refine ⟨_, h.keeps.trans hclosed.keeps,
    hclosed.loadRecord_eq (h.keeps.reachable hreachable) hlegible, ⟨hlegible, fun key x hx => ?_⟩,
    fun key => ?_, fun names hn hnone => ?_⟩
  · obtain ⟨a, ha, hwell, -⟩ := (hclosed.digest key x.digest).1 (by rw [hx]; rfl)
    obtain ⟨dirs, file, -, hnames, hlead, -⟩ := h.placed key a ha hwell
    exact ⟨dirs, file, hnames, (mem_of_lastAttempt ha).2.symm.trans hlead.parts_eq⟩
  · rw [← Option.isSome_map (f := fun x => x.digest), Option.isSome_iff_exists]
    simp only [hclosed.digest]
    constructor
    · rintro ⟨_, a, ha, hwell, -⟩
      exact ⟨a, ha, hwell⟩
    · rintro ⟨a, ha, hwell⟩
      exact ⟨_, a, ha, hwell, rfl⟩
  · rw [hclosed.file names hn, h.file names hnone, hclosed.removed_eq]
    simp only [mem_unattempted_iff hr.legible.keyed, hnone, and_true]

/-! ## Rounds in a row

`Owns` is kept from round to round. It looks back over all attempts so far, while each round only
knows its own: at a path that this round attempted its last attempt is the last of all, and at any
other path a file is still there only if the record did not list it, so the earlier attempt was a
failure and stays the last one. -/

/-- A round on a root that is there leaves it in this way. -/
theorem exists_leaves {c : Course} (hfair : c.Fair)
    (hlocate : t.locateDirectory (.working here) root = .ok base)
    (hload : loadRecord t base = .ok r) (hr : Proper r)
    (hround : ended? here root t c = some (t', as)) : ∃ r', Leaves base t r as t' r' := by
  obtain ⟨s, t₀, ⟨s', t₁⟩, hstart, hwrites, hok, rfl⟩ := ended?_eq_some_iff.1 hround
  rw [start_of_locateDirectory hlocate, hload] at hstart
  obtain ⟨hs, rfl⟩ := Prod.mk.inj hstart
  cases hs
  have hfresh : AfterAttempts base t r [] (fresh root base r, t) :=
    afterAttempts_fresh root hr.legible.keyed
  have hall := hfresh.writeEach fun w hw => ⟨hfair.honest w hw, hfair.read w hw⟩
  rw [hwrites, List.nil_append] at hall
  refine hall.leaves hr (fun a ha => ?_) (fun a ha => ?_)
    (Tree.reachable_of_locateDirectory rfl hlocate) hfair.candid hok
  · obtain ⟨w, hw, he⟩ := exists_of_mem_attempts hwrites ha
    exact he ▸ hfair.read w hw
  · obtain ⟨w, hw, he⟩ := exists_of_mem_attempts hwrites ha
    exact he ▸ hfair.feed_not_mem w hw

/-- What is known about the files after the attempts: each was asked for, and the record lists it
exactly if the last attempt at it went well. -/
structure Owns (base : Location) (as : List Attempt) (t : Tree) (r : Record) : Prop where
  /-- the record lists sources -/
  proper : Proper r
  /-- it lists the files where the last attempt went well -/
  file : ∀ (names : List String) (c : ByteArray), names ≠ [Record.entryName] →
    t.content? (base ++ names) = some c → ∃ a, lastAttempt as (names.map .name) = some a ∧
      ((r.find? (names.map .name)).isSome = true ↔ a.result = .ok ())

/-- A round keeps this up. -/
theorem Leaves.owns (h : Leaves base t r as t' r') (ht : Owns base before t r) :
    Owns base (before ++ as) t' r' where
  proper := h.proper
  file := by
    intro names c hn hc
    rw [lastAttempt_append, h.listed]
    rcases ha : lastAttempt as (names.map .name) with _ | a
    · -- the file was there before, and it was not listed, or else it would be gone
      rw [h.file names hn ha] at hc
      split at hc
      · cases hc
      · rename_i hunlisted
        obtain ⟨a, hlast, hlisted⟩ := ht.file names c hn hc
        refine ⟨a, by rw [Option.none_or, hlast], ?_⟩
        simp [← hlisted, hunlisted]
    · exact ⟨a, rfl, by simp⟩

/-- After any number of rounds the files are owned by the last attempts. By induction on the rounds.
-/
theorem Owns.rounds {courses : List Course} (h : Owns base before t r)
    (hfair : ∀ c ∈ courses, c.Fair)
    (hlocate : t.locateDirectory (.working here) root = .ok base)
    (hload : loadRecord t base = .ok r)
    (hrounds : endedAll? here root t courses = some (t', as)) :
    ∃ r', t'.locateDirectory (.working here) root = .ok base ∧ loadRecord t' base = .ok r' ∧
      Owns base (before ++ as) t' r' := by
  induction courses generalizing t r before as with
  | nil =>
    cases hrounds
    exact ⟨r, hlocate, hload, by rwa [List.append_nil]⟩
  | cons c courses ih =>
    obtain ⟨⟨t₁, as₁⟩, hround, hrounds⟩ := Option.bind_eq_some_iff.1 hrounds
    obtain ⟨⟨t₂, as₂⟩, hrest, hlast⟩ := Option.bind_eq_some_iff.1 hrounds
    cases hlast
    obtain ⟨r₁, hleaves⟩ := exists_leaves (hfair c List.mem_cons_self) hlocate hload h.proper hround
    rw [← List.append_assoc]
    exact ih (hleaves.owns h) (fun c' hc' => hfair c' (List.mem_cons_of_mem _ hc'))
      (Tree.locateDirectory_of_keeps hleaves.keeps rfl hlocate) hleaves.load hrest

/-- A round opens its root first, so it may find it opened already. -/
theorem Opens.ended?_eq (h : Opens here root t t₀ base) (c : Course) :
    ended? here root t c = ended? here root t₀ c := by
  obtain ⟨s, hs, hb⟩ := h
  obtain ⟨base', r, hl, hr, rfl⟩ := start_ok hs
  rw [ended?, ended?, hs, start_of_locateDirectory hl, hr]
  rfl

/-- **A root owns a file exactly if the last write of the file went well.** A root without files
goes through any rounds, in which any write may fail and leave the file as it was or broken off.
Then every file other than the record was given to some round, and the record lists it exactly if
the last write that it was given went well. If so, any later round deletes it that is not given
it; if not, none does. -/
theorem listed_iff_last_write_ok {courses : List Course} {content : ByteArray}
    (hopen : Opens here root t t₀ base) (hempty : ∀ names, t₀.content? (base ++ names) = none)
    (hfair : ∀ c ∈ courses, c.Fair) (hrounds : endedAll? here root t courses = some (t', as))
    (hn : names ≠ [Record.entryName]) (hpresent : t'.content? (base ++ names) = some content) :
    ∃ a r, lastAttempt as (names.map .name) = some a ∧ loadRecord t' base = .ok r ∧
      ((r.find? (names.map .name)).isSome = true ↔ a.result = .ok ()) ∧
      ∀ c t'' bs, c.Fair → ended? here root t' c = some (t'', bs) →
        lastAttempt bs (names.map .name) = none →
          (t''.content? (base ++ names) = none ↔ a.result = .ok ()) := by
  have hload := hopen.loadRecord_eq fun c hc => by
    rw [← Tree.content?_eq_some_iff, hempty] at hc
    cases hc
  have howns : Owns base [] t₀ ∅ := by
    refine ⟨proper_empty, fun names c _ hc => ?_⟩
    rw [hempty] at hc
    cases hc
  cases courses with
  | nil =>
    -- opening the root makes no file
    obtain ⟨s, hstart, -⟩ := hopen
    cases hrounds
    rw [← (sameFiles_of_start hstart).content?_eq, hempty] at hpresent
    cases hpresent
  | cons c courses =>
    rw [endedAll?, hopen.ended?_eq] at hrounds
    obtain ⟨r, hlocate, hload, howns⟩ := howns.rounds hfair hopen.locateDirectory hload hrounds
    obtain ⟨a, hlast, hlisted⟩ := howns.file names content hn hpresent
    refine ⟨a, r, hlast, hload, hlisted, fun c' t'' bs hfair' hround hnone => ?_⟩
    obtain ⟨r', hleaves⟩ := exists_leaves hfair' hlocate hload howns.proper hround
    rw [hleaves.file names hn hnone, ← hlisted, hpresent]
    simp [Option.isSome_iff_ne_none]

/-- Of two components one is written and the other one is not. -/
def halfCourse : Course where
  writes := [(.sound, emptyComponent "A"), (.refusing, emptyComponent "B")]
  last := .sound

/-- The disks of that course do nothing that they are not asked for. -/
theorem fair_halfCourse : halfCourse.Fair where
  honest := by
    intro w hw
    rcases List.mem_pair.1 hw with rfl | rfl
    · exact Disk.sound_honest
    · exact Disk.refusing_honest
  read := by
    intro w hw
    rcases List.mem_pair.1 hw with rfl | rfl
    · exact ⟨"app.A", rfl⟩
    · exact ⟨"app.B", rfl⟩
  feed_not_mem := by
    intro w hw
    rcases List.mem_pair.1 hw with rfl | rfl <;> decide +kernel
  candid := Disk.sound_candid

/-- The component that was written is listed, and a round without it deletes it. -/
theorem component_listed_after_write : ∃ t₁ as a r t₂,
    endedAll? [] ⟨"out"⟩ .empty [halfCourse] = some (t₁, as) ∧
      lastAttempt as [.name "app", .name "A.java"] = some a ∧ a.result = .ok () ∧
      loadRecord t₁ ["out"] = .ok r ∧
      (r.find? [.name "app", .name "A.java"]).isSome = true ∧
      ended? [] ⟨"out"⟩ t₁ ⟨[], .sound⟩ = some (t₂, []) ∧
      t₂.content? ["out", "app", "A.java"] = none := by
  have hrun : ((endedAll? [] ⟨"out"⟩ .empty [halfCourse]).bind fun w =>
      (ended? [] ⟨"out"⟩ w.1 ⟨[], .sound⟩).filter fun w' => decide (
        (lastAttempt w.2 [.name "app", .name "A.java"]).map (·.result) = some (.ok ()) ∧
          w.1.content? ["out", "app", "A.java"] = some (emptyComponent "A").render.toUTF8 ∧
          w'.2.length = 0)).isSome = true := by
    decide +kernel
  obtain ⟨⟨t₂, bs⟩, hrun⟩ := Option.isSome_iff_exists.1 hrun
  obtain ⟨⟨t₁, as⟩, hrounds, hrun⟩ := Option.bind_eq_some_iff.1 hrun
  obtain ⟨hround, hrun⟩ := Option.filter_eq_some_iff.1 hrun
  obtain ⟨hwell, hpresent, hlength⟩ := of_decide_eq_true hrun
  have hnone : bs = [] := List.length_eq_zero_iff.1 hlength
  rw [hnone] at hround
  have hopen : Opens [] ⟨"out"⟩ .empty bareRoot ["out"] := ⟨_, start_empty, rfl⟩
  have hfair : ∀ c ∈ [halfCourse], c.Fair := by
    intro c hc
    rw [List.mem_singleton.1 hc]
    exact fair_halfCourse
  obtain ⟨a, r, hlast, hload, hlisted, hlater⟩ :=
    listed_iff_last_write_ok hopen content?_bareRoot hfair hrounds
      (show (["app", "A.java"] : List String) ≠ [Record.entryName] by decide) hpresent
  have hok : a.result = .ok () := by
    rw [show [Path.Part.name "app", .name "A.java"] = ["app", "A.java"].map .name from rfl,
      hlast] at hwell
    exact Option.some.inj hwell
  have hlater := hlater ⟨[], .sound⟩ t₂ [] ⟨nofun, nofun, nofun, Disk.sound_candid⟩ hround rfl
  exact ⟨t₁, as, a, r, t₂, hrounds, hlast, hok, hload, hlisted.2 hok, hround, hlater.2 hok⟩

/-- **A write that fails loses the file.** A round writes an interface, and the next one cannot
write a class in its place. That round ends well and leaves the text of the interface in the file,
under a record that lists nothing. A third round, without units, leaves the file there. -/
theorem failed_write_loses_file : ∃ t₂ as t₃,
    endedAll? [] ⟨"out"⟩ .empty [⟨[(.sound, mainComponent .interface)], .sound⟩,
        ⟨[(.refusing, mainComponent .class)], .sound⟩] = some (t₂, as) ∧
      as.map (·.result) = [.ok (), .error .nameTooLong] ∧
      t₂.content? ["out", "app", "Main.java"] = some (mainComponent .interface).render.toUTF8 ∧
      t₂.content? ["out", Record.entryName] = some "".toUTF8 ∧
      ended? [] ⟨"out"⟩ t₂ ⟨[], .sound⟩ = some (t₃, []) ∧
      t₃.content? ["out", "app", "Main.java"] =
        some (mainComponent .interface).render.toUTF8 := by
  have hrun : ((endedAll? [] ⟨"out"⟩ .empty [⟨[(.sound, mainComponent .interface)], .sound⟩,
      ⟨[(.refusing, mainComponent .class)], .sound⟩]).bind fun w =>
        (ended? [] ⟨"out"⟩ w.1 ⟨[], .sound⟩).filter fun w' => decide (
          w.2.map (·.result) = [.ok (), .error .nameTooLong] ∧
            w.1.content? ["out", "app", "Main.java"] =
              some (mainComponent .interface).render.toUTF8 ∧
            w.1.content? ["out", Record.entryName] = some "".toUTF8 ∧ w'.2.length = 0 ∧
            w'.1.content? ["out", "app", "Main.java"] =
              some (mainComponent .interface).render.toUTF8)).isSome = true := by
    decide +kernel
  obtain ⟨⟨t₃, bs⟩, hrun⟩ := Option.isSome_iff_exists.1 hrun
  obtain ⟨⟨t₂, as⟩, hrounds, hrun⟩ := Option.bind_eq_some_iff.1 hrun
  obtain ⟨hround, hrun⟩ := Option.filter_eq_some_iff.1 hrun
  obtain ⟨hresults, hfile, hrecord, hlength, hleft⟩ := of_decide_eq_true hrun
  have hnone : bs = [] := List.length_eq_zero_iff.1 hlength
  rw [hnone] at hround
  exact ⟨t₂, as, t₃, hrounds, hresults, hfile, hrecord, hround, hleft⟩

end Session

end PlatformWiring
