import Mathlib.Data.List.Basic
import PlatformWiring.Output.Tree

/-!
# A tree as a map from locations

All that file operations can see of a tree is what stands at each location: nothing, a
directory, or a file with its content. The laws below say how the operations on trees act on
this view. Each of them changes one location only, provided that the directory which holds
the location is there.
-/

namespace PlatformWiring

/-- What stands at a location, without what a directory holds. All laws of trees are stated with it:
two trees in which the same stands everywhere cannot be told apart by reading files. -/
inductive Standing where
  /-- a directory, whatever it holds -/
  | directory
  /-- a file with its content -/
  | file (content : ByteArray)

/-- The entry without what it holds. -/
def Entry.standing : Entry → Standing
  | .file content => .file content
  | .directory _ => .directory

/-- What a location inside the entry leads to. -/
def Entry.at? : Entry → Location → Option Entry
  | e, [] => some e
  | .directory t, loc => t.entry? loc
  | .file _, _ :: _ => none

@[simp] theorem Entry.at?_nil (e : Entry) : e.at? [] = some e := by
  cases e <;> rfl

/-- A name in a directory leads to what the directory holds under it. -/
@[simp] theorem Entry.at?_directory (t : Tree) (loc : Location) :
    (Entry.directory t).at? loc = t.entry? loc := by
  cases loc <;> rfl

/-- Nothing is inside a file. -/
@[simp] theorem Entry.at?_file_cons (c : ByteArray) (name : String) (rest : Location) :
    (Entry.file c).at? (name :: rest) = none := rfl

namespace Tree

/-- What stands at a location. -/
def standing? (t : Tree) (loc : Location) : Option Standing := (t.entry? loc).map (·.standing)

/-! ## Looking up

A look-up goes from directory to directory, name by name. It can be cut in two anywhere: what stands
below a location is what stands in the entry there. So a statement about one directory becomes one
about the whole tree by putting the way to the directory in front. -/

@[simp] theorem find?_empty (name : String) : Tree.empty.find? name = none := rfl

@[simp] theorem entry?_nil (t : Tree) : t.entry? [] = some (.directory t) := rfl

/-- A look-up begins with the first name. -/
theorem entry?_cons (t : Tree) (name : String) (rest : Location) :
    t.entry? (name :: rest) = (t.find? name).bind (·.at? rest) := by
  cases rest with
  | nil => cases h : t.find? name <;> simp [ entry?, h]
  | cons next rest =>
    rcases h : t.find? name with _ | ⟨c⟩ | ⟨d⟩ <;> simp [ entry?, h]

/-- A look-up can be cut in two. -/
theorem entry?_append (t : Tree) (above rest : Location) :
    t.entry? (above ++ rest) = (t.entry? above).bind (·.at? rest) := by
  induction above generalizing t with
  | nil => simp
  | cons name above ih =>
    rw [List.cons_append, entry?_cons, entry?_cons]
    rcases t.find? name with _ | ⟨c⟩ | ⟨d⟩
    · rfl
    · cases above with
      | nil => simp
      | cons next above => rfl
    · simp [ih]

@[simp] theorem standing?_nil (t : Tree) : t.standing? [] = some .directory := rfl

/-- Below a directory stands what stands in it. -/
theorem standing?_append {t d : Tree} {above : Location} (h : t.entry? above = some (.directory d))
    (rest : Location) : t.standing? (above ++ rest) = d.standing? rest := by
  simp [standing?, entry?_append, h]

/-- A directory stands where a directory is looked up. -/
theorem standing?_eq_directory_iff {t : Tree} {loc : Location} :
    t.standing? loc = some .directory ↔ ∃ d, t.entry? loc = some (.directory d) := by
  rcases h : t.entry? loc with _ | ⟨c⟩ | ⟨d⟩ <;> simp [standing?, h, Entry.standing]

/-- A file stands where it is looked up. -/
theorem standing?_eq_file_iff {t : Tree} {loc : Location} {c : ByteArray} :
    t.standing? loc = some (.file c) ↔ t.entry? loc = some (.file c) := by
  rcases h : t.entry? loc with _ | ⟨c⟩ | ⟨d⟩ <;> simp [standing?, h, Entry.standing]

/-- The content of a location is that of the file that stands there. -/
theorem content?_eq_some_iff {t : Tree} {loc : Location} {c : ByteArray} :
    t.content? loc = some c ↔ t.standing? loc = some (.file c) := by
  rcases h : t.entry? loc with _ | ⟨c⟩ | ⟨d⟩ <;>
    simp [content?, standing?, h, Entry.standing]

/-- Whatever has something below it is a directory. -/
theorem standing?_of_append {t : Tree} {above rest : Location} (hrest : rest ≠ [])
    (h : t.standing? (above ++ rest) ≠ none) : t.standing? above = some .directory := by
  obtain ⟨name, rest, rfl⟩ := List.exists_cons_of_ne_nil hrest
  rw [standing?, entry?_append] at h
  rcases ha : t.entry? above with _ | ⟨c⟩ | ⟨d⟩
  · simp [ha] at h
  · simp [ha] at h
  · exact standing?_eq_directory_iff.2 ⟨d, ha⟩

/-! ## Changing a directory

Operations change one entry of one directory. `graft` puts the changed directory back in its place,
and the whole tree is rebuilt along the way to it. Putting and dropping entries are grafts, so it is
enough to know what a graft does to the view: what stood outside of the directory stands there
still, and inside of it the change is the one of the directory. -/

/-- Altering a name changes what is found there and nothing else. By induction on the entries, since
the tree is a list of them. -/
theorem find?_alter (name other : String) (f : Option Entry → Entry) : ∀ t : Tree,
    (t.alter name f).find? other =
      if other = name then some (f (t.find? name)) else t.find? other
  | .empty => by
    by_cases h : other = name
    · simp [alter, find?, h]
    · have h' : ¬name = other := fun e => h e.symm
      simp [alter, find?, h, h']
  | .entry n e rest => by
    have ih := find?_alter name other f rest
    by_cases hn : n = name
    · subst hn
      by_cases h : other = n
      · simp [alter, find?, h]
      · have h' : ¬n = other := fun e => h e.symm
        simp [alter, find?, h, h']
    · by_cases h : n = other
      · subst h
        simp [alter, find?, hn]
      · simp [alter, find?, hn, h, ih]

/-- Only what stands at the altered name matters to `alter`. -/
theorem alter_congr {name : String} {f g : Option Entry → Entry} : ∀ {t : Tree},
    f (t.find? name) = g (t.find? name) → t.alter name f = t.alter name g
  | .empty, h => by
    simp only [find?] at h
    simp [alter, h]
  | .entry n e rest, h => by
    by_cases hn : n = name
    · simp only [find?, hn, if_true] at h
      simp [alter, hn, h]
    · simp only [find?, hn, if_false] at h
      simp [alter, hn, alter_congr h]

/-- Erasing a name makes it unknown and changes nothing else. -/
theorem find?_erase (name other : String) : ∀ t : Tree,
    (t.erase name).find? other = if other = name then none else t.find? other
  | .empty => by simp [erase, find?]
  | .entry n e rest => by
    have ih := find?_erase name other rest
    by_cases hn : n = name
    · subst hn
      by_cases h : other = n
      · subst h
        simpa [erase] using ih
      · have h' : ¬n = other := fun e => h e.symm
        simp [erase, find?, ih, h, h']
    · by_cases h : n = other
      · subst h
        simp [erase, find?, hn]
      · simp [erase, find?, hn, h, ih]

/-- The tree with another directory at a location. Names that are missing or lead to a file get a
directory on the way, which does not happen where the way is there already. -/
def graft (t d : Tree) : Location → Tree
  | [] => d
  | name :: rest => t.alter name fun old => .directory ((inside old).graft d rest)

/-- The way to a directory begins with a directory. -/
theorem exists_find?_of_entry?_cons {t d : Tree} {a : String} {above : Location}
    (h : t.entry? (a :: above) = some (.directory d)) :
    ∃ b, t.find? a = some (.directory b) ∧ b.entry? above = some (.directory d) := by
  rw [entry?_cons] at h
  rcases ha : t.find? a with _ | ⟨c⟩ | ⟨b⟩
  · simp [ha] at h
  · cases above <;> simp [ha] at h
  · exact ⟨b, rfl, by simpa [ha] using h⟩

/-- Putting an entry changes the directory that holds it. -/
theorem put_eq_graft {t d : Tree} {above : Location} (h : t.entry? above = some (.directory d))
    (e : Entry) (name : String) :
    t.put e (above ++ [name]) = t.graft (d.alter name fun _ => e) above := by
  induction above generalizing t with
  | nil =>
    obtain rfl : t = d := by simpa using h
    rfl
  | cons a above ih =>
    obtain ⟨b, ha, hb⟩ := exists_find?_of_entry?_cons h
    obtain ⟨next, rest, hrest⟩ : ∃ next rest, above ++ [name] = next :: rest :=
      List.exists_cons_of_ne_nil (by simp)
    rw [List.cons_append, hrest, put, graft]
    apply alter_congr
    rw [ha, ← hrest]
    exact congrArg Entry.directory (ih hb)

/-- Dropping an entry changes the directory that holds it. -/
theorem drop_eq_graft {t d : Tree} {above : Location} (h : t.entry? above = some (.directory d))
    (name : String) : t.drop (above ++ [name]) = t.graft (d.erase name) above := by
  induction above generalizing t with
  | nil =>
    obtain rfl : t = d := by simpa using h
    rfl
  | cons a above ih =>
    obtain ⟨b, ha, hb⟩ := exists_find?_of_entry?_cons h
    obtain ⟨next, rest, hrest⟩ : ∃ next rest, above ++ [name] = next :: rest :=
      List.exists_cons_of_ne_nil (by simp)
    rw [List.cons_append, hrest, drop, graft, ha]
    apply alter_congr
    rw [ha, ← hrest]
    exact congrArg Entry.directory (ih hb)

/-- A change of one entry of a directory is a change of one location of the tree. By induction on
the way to the directory: at each name the graft changes what is found there to a directory, and one
was there before. -/
theorem standing?_graft {t d d' : Tree} {above : Location} {name : String}
    {x : Option Standing} (h : t.entry? above = some (.directory d))
    (hd : ∀ rest, d'.standing? rest = if rest = [name] then x else d.standing? rest)
    (loc : Location) :
    (t.graft d' above).standing? loc = if loc = above ++ [name] then x else t.standing? loc := by
  induction above generalizing t loc with
  | nil =>
    obtain rfl : t = d := by simpa using h
    exact hd loc
  | cons a above ih =>
    obtain ⟨b, ha, hb⟩ := exists_find?_of_entry?_cons h
    cases loc with
    | nil => simp
    | cons n rest =>
      by_cases hn : n = a
      · subst hn
        have := ih hb rest
        simp only [standing?] at this
        simp [standing?, entry?_cons, graft, find?_alter, ha, inside, this]
      · simp [standing?, entry?_cons, graft, find?_alter, hn]

/-! ## One location changes

These are the three laws that all file operations are explained with. Each needs to know what stood
at the location before, since a directory that is replaced or dropped would take everything below it
along. -/

/-- Putting a file where no directory stands changes that location only. -/
theorem standing?_put_file {t : Tree} {above : Location} {name : String}
    (hdir : t.standing? above = some .directory)
    (hfree : t.standing? (above ++ [name]) ≠ some .directory) (c : ByteArray) (loc : Location) :
    (t.put (.file c) (above ++ [name])).standing? loc =
      if loc = above ++ [name] then some (.file c) else t.standing? loc := by
  obtain ⟨d, hd⟩ := standing?_eq_directory_iff.1 hdir
  rw [put_eq_graft hd]
  refine standing?_graft hd (fun rest => ?_) loc
  rw [standing?_append hd, standing?, entry?_cons] at hfree
  rcases rest with _ | ⟨n, _ | ⟨m, rest⟩⟩
  · simp
  · by_cases hn : n = name <;> simp [standing?, entry?_cons, find?_alter, hn, Entry.standing]
  · by_cases hn : n = name
    · subst hn
      rcases hf : d.find? n with _ | ⟨c'⟩ | ⟨b⟩
      · simp [standing?, entry?_cons, find?_alter, hf]
      · simp [standing?, entry?_cons, find?_alter, hf]
      · simp [hf, Entry.standing] at hfree
    · simp [standing?, entry?_cons, find?_alter, hn]

/-- Putting an empty directory where nothing stands changes that location only. -/
theorem standing?_put_directory {t : Tree} {above : Location} {name : String}
    (hdir : t.standing? above = some .directory)
    (hfree : t.standing? (above ++ [name]) = none) (loc : Location) :
    (t.put (.directory .empty) (above ++ [name])).standing? loc =
      if loc = above ++ [name] then some .directory else t.standing? loc := by
  obtain ⟨d, hd⟩ := standing?_eq_directory_iff.1 hdir
  rw [put_eq_graft hd]
  refine standing?_graft hd (fun rest => ?_) loc
  rw [standing?_append hd, standing?, entry?_cons] at hfree
  have hf : d.find? name = none := by
    rcases hf : d.find? name with _ | e
    · rfl
    · simp [hf] at hfree
  rcases rest with _ | ⟨n, _ | ⟨m, rest⟩⟩
  · simp
  · by_cases hn : n = name <;> simp [standing?, entry?_cons, find?_alter, hn, Entry.standing]
  · by_cases hn : n = name
    · subst hn
      simp [standing?, entry?_cons, find?_alter, hf]
    · simp [standing?, entry?_cons, find?_alter, hn]

/-- Dropping a file changes its location only. -/
theorem standing?_drop_file {t : Tree} {above : Location} {name : String} {c : ByteArray}
    (hfile : t.standing? (above ++ [name]) = some (.file c)) (loc : Location) :
    (t.drop (above ++ [name])).standing? loc =
      if loc = above ++ [name] then none else t.standing? loc := by
  obtain ⟨d, hd⟩ := standing?_eq_directory_iff.1
    (standing?_of_append (List.cons_ne_nil name []) (by rw [hfile]; simp))
  rw [drop_eq_graft hd]
  refine standing?_graft hd (fun rest => ?_) loc
  rw [standing?_append hd, standing?_eq_file_iff, entry?_cons] at hfile
  have hf : d.find? name = some (.file c) := by
    rcases hf : d.find? name with _ | e
    · simp [hf] at hfile
    · simpa [hf] using hfile
  rcases rest with _ | ⟨n, rest⟩
  · simp
  · by_cases hn : n = name
    · subst hn
      cases rest <;> simp [standing?, entry?_cons, find?_erase, hf]
    · simp [standing?, entry?_cons, find?_erase, hn]

end Tree

end PlatformWiring
