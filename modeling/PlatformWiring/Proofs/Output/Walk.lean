import PlatformWiring.Output.Walk
import PlatformWiring.Proofs.Except
import PlatformWiring.Proofs.Output.Tree

/-!
# Walks in terms of locations

A walk that succeeds ends in a directory of the tree, and whether a walk along names
succeeds depends only on what stands at the locations it passes and on the length of the
names. After this module nobody looks into a `Place` any more: a path that leads to a name
below an output root is a location.
-/

namespace PlatformWiring

namespace Tree

/-- A directory that can be reached from the top: its names are short enough to be looked up. -/
def Reachable (t : Tree) (loc : Location) : Prop :=
  t.standing? loc = some .directory ∧ ∀ name ∈ loc, name.utf8ByteSize ≤ maxNameLength

/-- What lies on the way to a reachable directory is reachable. -/
theorem Reachable.of_append {t : Tree} {above rest : Location} (h : t.Reachable (above ++ rest)) :
    t.Reachable above := by
  refine ⟨?_, fun name hname => h.2 name (List.mem_append_left _ hname)⟩
  cases rest with
  | nil => simpa using h.1
  | cons name rest => exact standing?_of_append (List.cons_ne_nil _ _) (by rw [h.1]; simp)

end Tree

namespace Place

/-- The place is a directory of the tree, reached by names that are short enough. This is the
invariant of every walk: a place carries the directories that were entered, and each of them is what
the tree holds under its name. -/
inductive In (t : Tree) : Place → Prop
  /-- the top directory -/
  | top : In t ⟨some t, []⟩
  /-- a directory in one that was reached -/
  | enter {p : Place} {d below : Tree} {name : String} :
      In t p → p.inside? = some d → name.utf8ByteSize ≤ maxNameLength →
      d.find? name = some (.directory below) → In t { p with entered := (name, below) :: p.entered }

/-- Entering a directory adds its name to the location. -/
@[simp] theorem location_enter (p : Place) (name : String) (below : Tree) :
    Place.location { p with entered := (name, below) :: p.entered } = p.location ++ [name] := by
  simp [location]

variable {t : Tree} {p q : Place} {name : String}

/-- A place holds what stands at its location. -/
theorem In.exists_inside (h : p.In t) :
    ∃ d, p.inside? = some d ∧ t.entry? p.location = some (.directory d) := by
  induction h with
  | top => exact ⟨t, rfl, rfl⟩
  | @enter p d below name _ hd hlen hf ih =>
    obtain ⟨d', hd', hloc⟩ := ih
    obtain rfl : d = d' := Option.some.inj (hd.symm.trans hd')
    refine ⟨below, rfl, ?_⟩
    rw [location_enter, Tree.entry?_append, hloc]
    simp [Tree.entry?_cons, hf]

/-- What a place holds is what the tree holds at its location. -/
theorem In.entry?_location {d : Tree} (h : p.In t) (hd : p.inside? = some d) :
    t.entry? p.location = some (.directory d) := by
  obtain ⟨d', hd', hloc⟩ := h.exists_inside
  obtain rfl : d = d' := Option.some.inj (hd.symm.trans hd')
  exact hloc

theorem In.reachable (h : p.In t) : t.Reachable p.location := by
  obtain ⟨d, -, hloc⟩ := h.exists_inside
  refine ⟨Tree.standing?_eq_directory_iff.2 ⟨d, hloc⟩, ?_⟩
  clear hloc d
  induction h with
  | top => intro name hname; simp [location] at hname
  | enter _ _ hlen _ ih =>
    intro name hname
    rw [location_enter, List.mem_append, List.mem_singleton] at hname
    rcases hname with hname | rfl
    · exact ih name hname
    · exact hlen

/-- What stands at a name in a place. -/
theorem In.standing?_name {d : Tree} (h : p.In t) (hd : p.inside? = some d) (name : String) :
    t.standing? (p.location ++ [name]) = (d.find? name).map (·.standing) := by
  rw [Tree.standing?_append (h.entry?_location hd)]
  simp [Tree.standing?, Tree.entry?_cons]

/-- The directory that a place was entered from is in the tree too. -/
theorem In.above {top : Option Tree} {x : String × Tree} {above : List (String × Tree)}
    (h : In t ⟨top, x :: above⟩) : In t ⟨top, above⟩ := by
  generalize hp : (⟨top, x :: above⟩ : Place) = p at h
  cases h with
  | top => cases hp
  | enter hin =>
    cases hp
    exact hin

/-! ## One step

Entering a directory succeeds or fails for reasons that the location gives: the name may be too
long, nothing may stand there, or a file. -/

/-- A step into a directory leads to the location one name further. -/
theorem In.of_enter (h : p.In t) (he : p.enter name = .ok q) :
    q.In t ∧ q.location = p.location ++ [name] := by
  obtain ⟨d, hd, -⟩ := h.exists_inside
  simp only [Place.enter, hd] at he
  split at he
  · cases he
  · rename_i hlen
    rcases hf : d.find? name with _ | ⟨c⟩ | ⟨below⟩ <;> rw [hf] at he
    · cases he
    · cases he
    · cases he
      exact ⟨.enter h hd (Nat.le_of_not_lt hlen) hf, location_enter p name below⟩

/-- A step into a directory that is there succeeds. -/
theorem In.exists_enter (h : p.In t) (hlen : name.utf8ByteSize ≤ maxNameLength)
    (hdir : t.standing? (p.location ++ [name]) = some .directory) : ∃ q, p.enter name = .ok q := by
  obtain ⟨d, hd, -⟩ := h.exists_inside
  rw [h.standing?_name hd] at hdir
  simp only [Place.enter, hd, if_neg (Nat.not_lt.2 hlen)]
  rcases hf : d.find? name with _ | ⟨c⟩ | ⟨below⟩ <;> rw [hf] at hdir
  · simp at hdir
  · simp [Entry.standing] at hdir
  · exact ⟨_, rfl⟩

/-- A step finds nothing exactly if the name could be looked up and nothing stands there. -/
theorem In.enter_eq_notFound_iff (h : p.In t) :
    p.enter name = .error .notFound ↔
      name.utf8ByteSize ≤ maxNameLength ∧ t.standing? (p.location ++ [name]) = none := by
  obtain ⟨d, hd, -⟩ := h.exists_inside
  rw [h.standing?_name hd]
  simp only [Place.enter, hd]
  split
  · rename_i hlen
    simp [Nat.not_le.2 hlen]
  · rename_i hlen
    rcases hf : d.find? name with _ | ⟨c⟩ | ⟨below⟩ <;> simp [Nat.le_of_not_lt hlen]

/-! ## Along names

A walk along names is step after step. Its three outcomes are told by locations as well: it ends in
a directory, it finds nothing, or something is in the way. The second one shows that nothing stands
at the end, since nothing stands below a location where nothing is, and the third one is excluded
where no file is on the way. -/

/-- A walk along names ends at the location that the names lead to. -/
theorem In.of_foldlM_enter {names : List String} (h : p.In t)
    (he : names.foldlM Place.enter p = .ok q) : q.In t ∧ q.location = p.location ++ names := by
  induction names generalizing p with
  | nil =>
    cases he
    exact ⟨h, (List.append_nil _).symm⟩
  | cons name names ih =>
    rw [List.foldlM_cons, bind_eq_ok_iff] at he
    obtain ⟨next, hnext, hrest⟩ := he
    obtain ⟨hin, hloc⟩ := h.of_enter hnext
    obtain ⟨hq, hq'⟩ := ih hin hrest
    exact ⟨hq, by rw [hq', hloc, List.append_assoc, List.singleton_append]⟩

/-- A walk along names succeeds exactly if it leads to a reachable directory. -/
theorem In.exists_foldlM_enter_iff {names : List String} (h : p.In t) :
    (∃ q, names.foldlM Place.enter p = .ok q) ↔ t.Reachable (p.location ++ names) := by
  constructor
  · rintro ⟨q, hq⟩
    obtain ⟨hin, hloc⟩ := h.of_foldlM_enter hq
    exact hloc ▸ hin.reachable
  · intro hr
    induction names generalizing p with
    | nil => exact ⟨p, rfl⟩
    | cons name names ih =>
      have hsplit : p.location ++ name :: names = (p.location ++ [name]) ++ names := by simp
      have hnext : t.Reachable (p.location ++ [name]) := Tree.Reachable.of_append (hsplit ▸ hr)
      obtain ⟨next, he⟩ := h.exists_enter (hnext.2 name (by simp)) hnext.1
      obtain ⟨hin, hloc⟩ := h.of_enter he
      obtain ⟨q, hq⟩ := ih hin (by rw [hloc, ← hsplit]; exact hr)
      exact ⟨q, by rw [List.foldlM_cons, he]; exact hq⟩

/-- A walk along names that finds nothing shows that nothing stands at its end. -/
theorem In.standing?_of_notFound {names : List String} (h : p.In t)
    (he : names.foldlM Place.enter p = .error .notFound) :
    t.standing? (p.location ++ names) = none := by
  induction names generalizing p with
  | nil => cases he
  | cons name names ih =>
    have hsplit : p.location ++ name :: names = (p.location ++ [name]) ++ names := by simp
    rw [List.foldlM_cons, bind_eq_error_iff] at he
    rcases he with he | ⟨next, hnext, hrest⟩
    · have hnone := (h.enter_eq_notFound_iff.1 he).2
      cases names with
      | nil => exact hnone
      | cons next names =>
        rw [hsplit]
        by_contra hne
        have := Tree.standing?_of_append (List.cons_ne_nil next names) hne
        rw [hnone] at this
        cases this
    · obtain ⟨hin, hloc⟩ := h.of_enter hnext
      rw [hsplit, ← hloc]
      exact ih hin hrest

/-- A walk along short names that no file blocks either succeeds or finds nothing. -/
theorem In.foldlM_enter_of_free {names : List String} (h : p.In t)
    (hlen : ∀ name ∈ names, name.utf8ByteSize ≤ maxNameLength)
    (hfree : ∀ pre, pre <+: names → ∀ c, t.standing? (p.location ++ pre) ≠ some (.file c)) :
    (∃ q, names.foldlM Place.enter p = .ok q) ∨
      names.foldlM Place.enter p = .error .notFound := by
  induction names generalizing p with
  | nil => exact Or.inl ⟨p, rfl⟩
  | cons name names ih =>
    rcases hs : t.standing? (p.location ++ [name]) with _ | ⟨⟩ | ⟨c⟩
    · right
      have := h.enter_eq_notFound_iff.2 ⟨hlen name (by simp), hs⟩
      rw [List.foldlM_cons, this]
      rfl
    · obtain ⟨next, he⟩ := h.exists_enter (hlen name (by simp)) hs
      obtain ⟨hin, hloc⟩ := h.of_enter he
      rw [List.foldlM_cons, he]
      refine ih hin (fun n hn => hlen n (List.mem_cons_of_mem _ hn)) (fun pre hpre c => ?_)
      rw [hloc, List.append_assoc, List.singleton_append]
      exact hfree (name :: pre) (List.cons_prefix_cons.2 ⟨rfl, hpre⟩) c
    · exact absurd hs (hfree [name] (by simp) c)

end Place

namespace Tree

variable {t : Tree} {start : Start} {base : Location} {parts : List Path.Part} {p : Path}
  {looked : String}

/-! ## From a starting directory

Paths that are given to an operation are looked up from a starting directory. For an output root
that is the place of the root, and a path of names never leaves it. So the location of such a path
is the one of the root with the names behind it. -/

/-- Walks below an output root that can be reached begin at its location. -/
theorem startingPlace_of_base (hb : start.base = some base) {q : Place}
    (h : t.startingPlace start = .ok q) : q.In t ∧ q.location = base := by
  simp only [startingPlace, hb] at h
  exact Place.In.top.of_foldlM_enter h

/-- Walks can begin at an output root that can be reached. -/
theorem exists_startingPlace (hb : start.base = some base) (hr : t.Reachable base) :
    ∃ q, t.startingPlace start = .ok q := by
  simp only [startingPlace, hb]
  exact Place.In.top.exists_foldlM_enter_iff.2 hr

/-- Every step keeps to the tree, also one upwards and one to the root. -/
theorem in_of_step {here q : Place} {part : Path.Part} (h : here.In t)
    (hs : t.step start here part = .ok q) : q.In t := by
  cases part with
  | root =>
    simp only [step] at hs
    split at hs
    · cases hs
    · cases hs
      exact .top
  | here =>
    cases hs
    exact h
  | up =>
    simp only [step] at hs
    split at hs
    · cases hs
    · rcases hc : here.entered with _ | ⟨x, above⟩ <;> rw [hc] at hs
      · cases hs
      · cases hs
        obtain ⟨top, entered⟩ := here
        obtain rfl : entered = x :: above := hc
        exact h.above
  | name s => exact (h.of_enter hs).1

/-- A walk ends in a directory of the tree. -/
theorem in_of_walk (hb : start.base = some base) {q : Place}
    (h : t.walk start parts = .ok q) : q.In t := by
  rw [walk, bind_eq_ok_iff] at h
  obtain ⟨here, hstart, hsteps⟩ := h
  obtain ⟨hin, -⟩ := startingPlace_of_base hb hstart
  clear hstart
  induction parts generalizing here with
  | nil =>
    cases hsteps
    exact hin
  | cons part parts ih =>
    rw [List.foldlM_cons, bind_eq_ok_iff] at hsteps
    obtain ⟨next, hnext, hrest⟩ := hsteps
    exact ih next hrest (in_of_step hin hnext)

/-- A walk to the end of a path is one to its last part but one, and a step. -/
theorem walk_concat (start : Start) (parts : List Path.Part) (part : Path.Part) :
    t.walk start (parts ++ [part]) =
      t.walk start parts >>= fun here => t.step start here part := by
  simp only [walk, bind_assoc, List.foldlM_append, List.foldlM_cons, List.foldlM_nil, bind_pure]

/-- A walk along names enters one directory after the other. -/
theorem walk_names (start : Start) (names : List String) :
    t.walk start (names.map .name) =
      t.startingPlace start >>= fun here => names.foldlM Place.enter here := by
  simp only [walk, List.foldlM_map]
  rfl

/-- A walk along names below an output root ends where the names lead. -/
theorem location_of_walk_names (hb : start.base = some base) {names : List String} {q : Place}
    (h : t.walk start (names.map .name) = .ok q) : q.location = base ++ names := by
  rw [walk_names, bind_eq_ok_iff] at h
  obtain ⟨here, hstart, hsteps⟩ := h
  obtain ⟨hin, hloc⟩ := startingPlace_of_base hb hstart
  rw [(hin.of_foldlM_enter hsteps).2, hloc]

/-- A walk along names below an output root succeeds exactly if it leads to a reachable
directory. -/
theorem exists_walk_names_iff (hb : start.base = some base) {names : List String} :
    (∃ q, t.walk start (names.map .name) = .ok q) ↔ t.Reachable (base ++ names) := by
  constructor
  · rintro ⟨q, hq⟩
    exact location_of_walk_names hb hq ▸ (in_of_walk hb hq).reachable
  · intro hr
    obtain ⟨here, hstart⟩ := exists_startingPlace hb hr.of_append
    obtain ⟨hin, rfl⟩ := startingPlace_of_base hb hstart
    obtain ⟨q, hq⟩ := hin.exists_foldlM_enter_iff.2 hr
    exact ⟨q, by rw [walk_names, hstart]; exact hq⟩

/-- If it finds nothing, nothing stands there. -/
theorem standing?_of_walk_notFound (hb : start.base = some base) (hr : t.Reachable base)
    {names : List String} (h : t.walk start (names.map .name) = .error .notFound) :
    t.standing? (base ++ names) = none := by
  obtain ⟨here, hstart⟩ := exists_startingPlace hb hr
  obtain ⟨hin, rfl⟩ := startingPlace_of_base hb hstart
  rw [walk_names, hstart] at h
  exact hin.standing?_of_notFound h

/-- If no file is on the way, it succeeds or finds nothing. -/
theorem walk_names_of_free (hb : start.base = some base) (hr : t.Reachable base)
    {names : List String} (hlen : ∀ name ∈ names, name.utf8ByteSize ≤ maxNameLength)
    (hfree : ∀ pre, pre <+: names → ∀ c, t.standing? (base ++ pre) ≠ some (.file c)) :
    (∃ q, t.walk start (names.map .name) = .ok q) ∨
      t.walk start (names.map .name) = .error .notFound := by
  obtain ⟨here, hstart⟩ := exists_startingPlace hb hr
  obtain ⟨hin, rfl⟩ := startingPlace_of_base hb hstart
  rw [walk_names, hstart]
  exact hin.foldlM_enter_of_free hlen hfree

/-! ## Walks in a tree with more directories

Making directories changes the tree under a walk, but it takes none away. Walks that succeeded do so
again and end at the same location, though at places of the new tree. So the location of an output
root stays what it is while files are written below it. -/

/-- Whatever is a directory stays one. -/
def Keeps (t t' : Tree) : Prop :=
  ∀ loc, t.standing? loc = some .directory → t'.standing? loc = some .directory

theorem Keeps.refl (t : Tree) : Keeps t t := fun _ => id

theorem Keeps.trans {t' t'' : Tree} (h : Keeps t t') (h' : Keeps t' t'') : Keeps t t'' :=
  fun loc hd => h' loc (h loc hd)

theorem Keeps.reachable {t' : Tree} {loc : Location} (h : Keeps t t') (hr : t.Reachable loc) :
    t'.Reachable loc :=
  ⟨h loc hr.1, hr.2⟩

/-- A step that succeeds does so in the other tree, to the same location. -/
theorem step_of_keeps {t' : Tree} (hk : Keeps t t') {here here' q : Place} {part : Path.Part}
    (h : here.In t) (h' : here'.In t') (hloc : here'.location = here.location)
    (hs : t.step start here part = .ok q) :
    ∃ q', t'.step start here' part = .ok q' ∧ q'.location = q.location := by
  cases part with
  | root =>
    simp only [step] at hs ⊢
    split at hs
    · cases hs
    · cases hs
      exact ⟨_, if_neg (by assumption), rfl⟩
  | here =>
    cases hs
    exact ⟨here', rfl, hloc⟩
  | up =>
    -- the location shows how far the place is from the start, so both steps leave it or neither
    have hnames : here'.entered.map Prod.fst = here.entered.map Prod.fst :=
      List.reverse_injective hloc
    have hlen : here'.entered.length = here.entered.length := by
      simpa using congrArg List.length hnames
    simp only [step, hlen] at hs ⊢
    split at hs
    · cases hs
    · rename_i hin
      rw [if_neg hin]
      rcases he : here.entered with _ | ⟨x, above⟩ <;> rw [he] at hs
      · cases hs
      · cases hs
        rcases he' : here'.entered with _ | ⟨x', above'⟩
        · simp [he, he'] at hlen
        · rw [he, he', List.map_cons, List.map_cons] at hnames
          refine ⟨_, rfl, ?_⟩
          simp only [Place.location, (List.cons.inj hnames).2]
  | name s =>
    obtain ⟨hin, hq⟩ := h.of_enter hs
    obtain ⟨q', hq'⟩ := h'.exists_enter (hin.reachable.2 s (by simp [hq]))
      (by rw [hloc, ← hq]; exact hk _ hin.reachable.1)
    exact ⟨q', hq', by rw [(h'.of_enter hq').2, hq, hloc]⟩

/-- A walk that succeeds does so after directories were made too, and it ends at the same
location. -/
theorem walk_of_keeps {t' : Tree} (hk : Keeps t t') (hb : start.base = some base) {q : Place}
    (h : t.walk start parts = .ok q) :
    ∃ q', t'.walk start parts = .ok q' ∧ q'.location = q.location := by
  rw [walk, bind_eq_ok_iff] at h
  obtain ⟨here, hstart, hsteps⟩ := h
  obtain ⟨hin, hloc⟩ := startingPlace_of_base hb hstart
  obtain ⟨here', hstart'⟩ :=
    exists_startingPlace (t := t') hb (hk.reachable (hloc ▸ hin.reachable))
  obtain ⟨hin', hloc'⟩ := startingPlace_of_base hb hstart'
  -- the steps do not depend on how the start was found
  suffices h : ∃ q', parts.foldlM (t'.step start) here' = .ok q' ∧ q'.location = q.location by
    obtain ⟨q', hq', hq⟩ := h
    exact ⟨q', by rw [walk, hstart']; exact hq', hq⟩
  replace hloc : here'.location = here.location := hloc'.trans hloc.symm
  clear hstart hstart' hloc'
  induction parts generalizing here here' with
  | nil =>
    cases hsteps
    exact ⟨here', rfl, hloc⟩
  | cons part parts ih =>
    rw [List.foldlM_cons, bind_eq_ok_iff] at hsteps
    obtain ⟨next, hnext, hrest⟩ := hsteps
    obtain ⟨next', hnext', hsame⟩ := step_of_keeps hk hin hin' hloc hnext
    obtain ⟨q', hq', hq⟩ :=
      ih next hrest (in_of_step hin hnext) next' (in_of_step hin' hnext') hsame
    exact ⟨q', by rw [List.foldlM_cons, hnext']; exact hq', hq⟩

/-- The location of a directory stays the same when others are made. -/
theorem locateDirectory_of_keeps {t' : Tree} (hk : Keeps t t') (hb : start.base = some base)
    {loc : Location} (h : t.locateDirectory start p = .ok loc) :
    t'.locateDirectory start p = .ok loc := by
  rw [locateDirectory, bind_eq_ok_iff] at h ⊢
  obtain ⟨⟨⟩, hcheck, h⟩ := h
  rw [bind_eq_ok_iff] at h
  obtain ⟨q, hq, hloc⟩ := h
  obtain ⟨q', hq', hsame⟩ := walk_of_keeps hk hb hq
  refine ⟨(), hcheck, bind_eq_ok_iff.2 ⟨q', hq', ?_⟩⟩
  rw [hsame]
  exact hloc

/-- A directory that was located is reachable. -/
theorem reachable_of_locateDirectory (hb : start.base = some base) {loc : Location}
    (h : t.locateDirectory start p = .ok loc) : t.Reachable loc := by
  rw [locateDirectory, bind_eq_ok_iff] at h
  obtain ⟨⟨⟩, -, h⟩ := h
  rw [bind_eq_ok_iff] at h
  obtain ⟨q, hq, hloc⟩ := h
  cases hloc
  exact (in_of_walk hb hq).reachable

/-! ## Targets

Reading, writing and removing begin with finding the target of a path: the directory that holds the
last name. With the two lemmas here the operations are taken apart without looking into places. -/

/-- A path leads to a name in a directory exactly if it can be looked up, ends in that name, and
its other parts lead to the directory. -/
theorem target_eq_child_iff {parent : Place} {inside : Tree} {s : String} :
    t.target start p looked = .ok (.child parent inside s) ↔
      checkPath start looked = .ok () ∧ p.endsInName = true ∧
        p.parts.getLast? = some (.name s) ∧ t.walk start p.parts.dropLast = .ok parent ∧
        '\x00' ∉ s.toList ∧ parent.inside? = some inside ∧ s.utf8ByteSize ≤ maxNameLength := by
  constructor
  · intro h
    rw [target, bind_eq_ok_iff] at h
    obtain ⟨⟨⟩, hcheck, h⟩ := h
    refine ⟨hcheck, ?_⟩
    split at h
    · rename_i hends hlast
      rw [bind_eq_ok_iff] at h
      obtain ⟨parent', hwalk, h⟩ := h
      split at h
      · cases h
      · rename_i hnul
        split at h
        · cases h
        · rename_i inside' hinside
          split at h
          · cases h
          · rename_i hlen
            cases h
            exact ⟨hends, hlast, hwalk, hnul, hinside, Nat.le_of_not_lt hlen⟩
    · rw [bind_eq_ok_iff] at h
      obtain ⟨place, -, h⟩ := h
      cases h
  · rintro ⟨hcheck, hends, hlast, hwalk, hnul, hinside, hlen⟩
    rw [target, bind_eq_ok_iff]
    refine ⟨(), hcheck, ?_⟩
    simp only [hends, hlast, hwalk]
    rw [bind_eq_ok_iff]
    refine ⟨parent, rfl, ?_⟩
    simp only [hnul, if_false, hinside, if_neg (Nat.not_lt.2 hlen)]
    rfl

/-- A path of names that leads nowhere below a reachable output root shows that nothing stands at
its location. -/
theorem standing?_of_target_notFound (hb : start.base = some base) (hc : start.confined = true)
    (hr : t.Reachable base) {names : List String} (hp : p.parts = names.map .name)
    (h : t.target start p looked = .error .notFound) : t.standing? (base ++ names) = none := by
  rw [target, bind_eq_error_iff] at h
  rcases h with h | ⟨⟨⟩, -, h⟩
  · simp only [checkPath, hc] at h
    split at h
    · cases h
    · split at h
      · cases h
      · simp at h
  · split at h
    · rename_i s _ hlast
      obtain ⟨dirs, rfl⟩ : ∃ dirs, names = dirs ++ [s] := by
        rcases List.eq_nil_or_concat names with rfl | ⟨dirs, s', rfl⟩
        · simp [hp] at hlast
        · rw [List.concat_eq_append] at hp ⊢
          simp only [hp, List.map_append, List.map_cons, List.map_nil, List.getLast?_concat,
            Option.some.injEq, Path.Part.name.injEq] at hlast
          exact ⟨dirs, by rw [hlast]⟩
      rw [hp, List.map_append, List.map_cons, List.map_nil, List.dropLast_concat,
        bind_eq_error_iff] at h
      rcases h with h | ⟨parent, hwalk, h⟩
      · have hnone := standing?_of_walk_notFound hb hr h
        by_contra hne
        rw [← List.append_assoc] at hne
        have := standing?_of_append (List.cons_ne_nil s []) hne
        rw [hnone] at this
        cases this
      · obtain ⟨d, hd, -⟩ := (in_of_walk hb hwalk).exists_inside
        simp only [hd] at h
        split at h
        · cases h
        · split at h <;> cases h
    · rw [hp, bind_eq_error_iff] at h
      rcases h with h | ⟨place, -, h⟩
      · exact standing?_of_walk_notFound hb hr h
      · cases h

end Tree

end PlatformWiring
