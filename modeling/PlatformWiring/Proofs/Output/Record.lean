import PlatformWiring.Digest
import PlatformWiring.Output.Record
import PlatformWiring.Proofs.OrderedMap
import PlatformWiring.Proofs.Text.Split

/-!
# Reading a record back

A record whose sources have legible lines is what reading its text gives, with the same order
and the same writing of the paths. Legible records stay legible when sources with such lines
are noted and when sources are forgotten, and every digest makes half of a legible line.
-/

namespace PlatformWiring

namespace Digest

/-- Hexadecimal digits are neither blanks nor line feeds. -/
theorem mem_hex {w : UInt32} {c : Char} (h : c ∈ hex w) : c ≠ ' ' ∧ c ≠ '\n' := by
  have hdigit : ∀ n < 16, Nat.digitChar n ≠ ' ' ∧ Nat.digitChar n ≠ '\n' := by decide
  obtain ⟨i, -, rfl⟩ := List.mem_map.1 h
  exact hdigit _ (Nat.mod_lt _ (by decide))

/-- A digest holds neither blanks nor line feeds. -/
theorem mem_ofText {s : String} {c : Char} (h : c ∈ (ofText s).toList) : c ≠ ' ' ∧ c ≠ '\n' := by
  rw [ofText, ofBytes, String.toList_ofList] at h
  obtain ⟨w, -, hw⟩ := List.mem_flatMap.1 h
  exact mem_hex hw

/-- A digest is not empty, so it makes the first half of a line. -/
theorem ofText_ne_empty (s : String) : ofText s ≠ "" := by
  rw [ofText, ofBytes, ne_eq, String.ofList_eq_empty_iff]
  simp [hex]

end Digest

/-- The line of the source can be read back. Each condition keeps the line from being cut elsewhere
than it was put together: at its first blank, at a line feed inside, or at a carriage return that
the line break would take along. -/
structure RecordedSource.Legible (s : RecordedSource) : Prop where
  /-- there is a digest -/
  digest_ne_empty : s.digest ≠ ""
  /-- it holds no blank, which ends it -/
  blank_not_mem : ' ' ∉ s.digest.toList
  /-- nor a line feed -/
  feed_not_mem_digest : '\n' ∉ s.digest.toList
  /-- there is a path -/
  path_ne_empty : s.path.text ≠ ""
  /-- it holds no line feed -/
  feed_not_mem_path : '\n' ∉ s.path.text.toList
  /-- it does not end in a carriage return, which would be taken for a part of the line break -/
  getLast?_ne : s.path.text.toList.getLast? ≠ some '\r'

namespace Record

/-- The record can be read back: its lines are legible, and its keys belong to its paths. -/
structure Legible (r : Record) : Prop where
  /-- a source is known by the parts of its path -/
  key_eq : ∀ key s, r.find? key = some s → key = s.path.parts
  /-- its line can be read back -/
  line : ∀ key s, r.find? key = some s → s.Legible

theorem legible_empty : Legible ∅ := by
  constructor <;> intro key s h <;> cases h

/-! ## Lines

A record is written line by line, and a line is a digest, a blank and a path. Reading cuts the text
into lines and each line at its first blank, and drops what is no such line. For a legible record
both cuts are where the writer put the pieces together. -/

/-- The line of a source without its line feed. -/
def lineText (s : RecordedSource) : List Char := s.digest.toList ++ ' ' :: s.path.text.toList

/-- A legible line is read back. -/
theorem readLine_lineText {s : RecordedSource} (h : s.Legible) :
    readLine (lineText s) = some (s.digest, s.path) := by
  have hdigest : s.digest.toList ≠ [] := mt String.toList_eq_nil_iff.1 h.digest_ne_empty
  have hpath : s.path.text.toList ≠ [] := mt String.toList_eq_nil_iff.1 h.path_ne_empty
  simp [readLine, lineText, Text.cutAt_append h.blank_not_mem, hdigest, hpath]

/-- The text of a record is its lines, each with a line feed. -/
theorem toList_write (r : Record) :
    r.write.toList = (r.values.map lineText).flatMap fun l => l ++ ['\n'] := by
  simp [write, writeLine, lineText, List.flatMap_map]

/-- A legible line is one line of text. -/
theorem lineText_of_legible {s : RecordedSource} (h : s.Legible) :
    '\n' ∉ lineText s ∧ (lineText s).getLast? ≠ some '\r' := by
  refine ⟨by simp [lineText, h.feed_not_mem_digest, h.feed_not_mem_path], ?_⟩
  have hpath : s.path.text.toList ≠ [] := mt String.toList_eq_nil_iff.1 h.path_ne_empty
  obtain ⟨c, cs, hc⟩ := List.exists_cons_of_ne_nil hpath
  have := h.getLast?_ne
  rw [hc] at this
  simpa [lineText, hc, List.getLast?_append] using this

/-- What a legible record lists has a legible line. -/
theorem Legible.of_mem_values {r : Record} (h : r.Legible) {s : RecordedSource}
    (hs : s ∈ r.values) : s.Legible := by
  obtain ⟨key, hkey⟩ := OrderedMap.mem_values_iff.1 hs
  exact h.line key s hkey

/-- So each of its lines is one line of text. -/
theorem Legible.lineText {r : Record} (h : r.Legible) :
    ∀ l ∈ r.values.map lineText, '\n' ∉ l ∧ l.getLast? ≠ some '\r' := by
  intro l hl
  obtain ⟨s, hs, rfl⟩ := List.mem_map.1 hl
  exact lineText_of_legible (h.of_mem_values hs)

/-- The lines of its text are its lines. -/
theorem lines_write {r : Record} (h : r.Legible) :
    Text.lines r.write.toList = r.values.map lineText := by
  rw [toList_write]
  exact Text.lines_flatMap (fun l hl => (h.lineText l hl).1) fun l hl => (h.lineText l hl).2

/-- Reading legible lines gives the digests and the paths that they were made of. -/
theorem filterMap_readLine {es : List (List Path.Part × RecordedSource)}
    (h : ∀ e ∈ es, e.2.Legible) :
    (es.map fun e => lineText e.2).filterMap readLine = es.map fun e => (e.2.digest, e.2.path) := by
  rw [List.filterMap_map, ← List.filterMap_eq_map]
  exact List.filterMap_congr fun e he => readLine_lineText (h e he)

/-! ## Reading back

The reader notes the sources one after the other. Since they are known by the parts of their paths
and no two have the same, each of them makes a new entry at the end, and the entries are those that
were written, in order. -/

/-- Noting the sources of a list of new entries adds these entries. -/
theorem entries_foldl_note {m : Record} {l : List (List Path.Part × RecordedSource)}
    (hkeys : ∀ e ∈ l, e.1 = e.2.path.parts) (hnodup : (m.keys ++ l.map Prod.fst).Nodup) :
    (l.foldl (fun r e => r.note e.2.path e.2.digest) m).entries = m.entries ++ l := by
  induction l generalizing m with
  | nil => simp
  | cons e l ih =>
    have hkey : e.1 = e.2.path.parts := hkeys e (by simp)
    have hnew : e.2.path.parts ∉ m.keys := by
      intro hmem
      rw [List.nodup_append] at hnodup
      exact hnodup.2.2 _ hmem e.1 (by simp) hkey.symm
    have hentries : (m.note e.2.path e.2.digest).entries = m.entries ++ [e] := by
      rw [note, OrderedMap.entries_alter_of_not_mem hnew, ← hkey]
    have hkeys' : (m.note e.2.path e.2.digest).keys = m.keys ++ [e.1] := by
      rw [OrderedMap.keys, hentries, List.map_append]
      rfl
    -- the first entry is new to the record, and the others are new to what follows from it
    rw [List.foldl_cons, ih (fun e' he' => hkeys e' (List.mem_cons_of_mem _ he')), hentries,
      List.append_assoc, List.singleton_append]
    rw [hkeys', List.append_assoc]
    exact hnodup

/-- The entries of a legible record are known by their paths and have legible lines. -/
theorem Legible.of_mem_entries {r : Record} (h : r.Legible)
    {e : List Path.Part × RecordedSource} (he : e ∈ r.entries) :
    e.1 = e.2.path.parts ∧ e.2.Legible :=
  have hfind := OrderedMap.mem_entries_iff.1 he
  ⟨h.key_eq e.1 e.2 hfind, h.line e.1 e.2 hfind⟩

/-- Reading is noting what the lines say. -/
theorem read_eq_foldl (text : String) : read text =
    ((Text.lines text.toList).filterMap readLine).foldl (fun r e => r.note e.2 e.1) ∅ := rfl

/-- The lines of the first sources make a record with these sources. -/
theorem exists_of_lines {r : Record} (h : r.Legible)
    {es fs : List (List Path.Part × RecordedSource)} (hentries : r.entries = es ++ fs) :
    ∃ r₁ : Record, r₁.entries = es ∧ ((es.map fun e => lineText e.2).filterMap readLine).foldl
      (fun r e => r.note e.2 e.1) ∅ = r₁ := by
  have hes : ∀ e ∈ es, e.1 = e.2.path.parts ∧ e.2.Legible := fun e he =>
    h.of_mem_entries (hentries ▸ List.mem_append_left fs he)
  have hnodup := r.nodup_keys
  rw [hentries, List.map_append] at hnodup
  refine ⟨_, ?_, rfl⟩
  rw [filterMap_readLine fun e he => (hes e he).2, List.foldl_map]
  simpa using entries_foldl_note (m := ∅) (l := es) (fun e he => (hes e he).1)
    (by simpa using (List.nodup_append.1 hnodup).1)

/-- **A legible record is read back as it was written.** -/
theorem read_write {r : Record} (h : r.Legible) : read r.write = r := by
  obtain ⟨r₁, hentries, hr₁⟩ := exists_of_lines h (List.append_nil r.entries).symm
  rw [read_eq_foldl, lines_write h, OrderedMap.values, List.map_map, Function.comp_def, hr₁]
  exact OrderedMap.ext_entries hentries

/-- Without legible lines it is not: a path with a line feed makes a line for another source. -/
example : (read (write (note (note ∅ ⟨"a/B.java"⟩ "1") ⟨"x\n2 a/B.java"⟩ "3"))).digest?
    ⟨"a/B.java"⟩ = some "2" := by
  decide +kernel

/-! ## Records cut short

A write may stop halfway, and then only the beginning of a record is on the disk. Its lines are
lines of the record, up to the last one, which may break off. If it breaks off in its digest there
is no line, and if it does so in its path, a source is listed that has the digest of another one and
the beginning of its path. -/

/-- The beginning of a line is no line, or its path breaks off. -/
theorem readLine_of_prefix {s : RecordedSource} (h : s.Legible) {cut : List Char}
    (hcut : cut <+: lineText s) : readLine cut = none ∨
      ∃ q : Path, q.text.toList <+: s.path.text.toList ∧ readLine cut = some (s.digest, q) := by
  rcases Text.prefix_append_cons hcut with hshort | ⟨q, hq, rfl⟩
  · left
    rw [readLine, Text.cutAt_of_not_mem fun hc => h.blank_not_mem (hshort.subset hc)]
  · rw [readLine, Text.cutAt_append h.blank_not_mem]
    by_cases hne : q = []
    · left
      simp [hne]
    · right
      have hdigest : s.digest.toList ≠ [] := mt String.toList_eq_nil_iff.1 h.digest_ne_empty
      exact ⟨⟨String.ofList q⟩, by rwa [String.toList_ofList], by simp [hne, hdigest]⟩

/-- The beginning of a record lists some of its sources, and perhaps one that breaks off: it has the
digest of the next source, and the beginning of its path. -/
theorem read_of_prefix {r : Record} (h : r.Legible) {text : String}
    (hpre : text.toList <+: r.write.toList) :
    ∃ r₁ : Record, (∀ key s, r₁.find? key = some s → r.find? key = some s) ∧
      (read text = r₁ ∨ ∃ s q, r.find? s.path.parts = some s ∧ r₁.find? s.path.parts = none ∧
        q.text.toList <+: s.path.text.toList ∧ read text = r₁.note q s.digest) := by
  rw [toList_write] at hpre
  obtain ⟨done, rest, hsplit, hlines⟩ := Text.lines_of_prefix h.lineText hpre
  rw [OrderedMap.values, List.map_map] at hsplit
  obtain ⟨es, fs, hentries, rfl, rfl⟩ := List.map_eq_append_iff.1 hsplit
  -- the whole lines give the sources before the place where the record breaks off
  obtain ⟨r₁, hfirst, hr₁⟩ := exists_of_lines h hentries
  refine ⟨r₁, fun key s hs => ?_, ?_⟩
  · rw [← OrderedMap.mem_entries_iff] at hs ⊢
    exact hentries ▸ List.mem_append_left fs (hfirst ▸ hs)
  · rcases hlines with hlines | ⟨l, more, cut, hrest, hcut, hlines⟩
    · left
      rw [read_eq_foldl, hlines, Function.comp_def, hr₁]
    · obtain ⟨f, fs', rfl, rfl, -⟩ := List.map_eq_cons_iff.1 hrest
      have hf : f ∈ r.entries := hentries ▸ List.mem_append_right es List.mem_cons_self
      obtain ⟨hkey, hlegible⟩ := h.of_mem_entries hf
      rcases readLine_of_prefix hlegible hcut with hcut | ⟨q, hq, hcut⟩
      · left
        rw [read_eq_foldl, hlines, Function.comp_def, List.filterMap_append, List.filterMap_cons,
          hcut, List.filterMap_nil, List.append_nil, hr₁]
      · right
        refine ⟨f.2, q, hkey ▸ OrderedMap.mem_entries_iff.1 hf, ?_, hq, ?_⟩
        · -- no key occurs twice
          rw [← hkey, Option.eq_none_iff_forall_not_mem]
          intro s hs
          have hes : f.1 ∈ es.map Prod.fst :=
            List.mem_map.2 ⟨(f.1, s), hfirst ▸ OrderedMap.mem_entries_iff.2 hs, rfl⟩
          have hnodup := r.nodup_keys
          rw [hentries, List.map_append, List.map_cons, List.nodup_append] at hnodup
          exact hnodup.2.2 f.1 hes f.1 List.mem_cons_self rfl
        · rw [read_eq_foldl, hlines, Function.comp_def, List.filterMap_append, List.filterMap_cons,
            hcut, List.filterMap_nil, List.foldl_append, hr₁]
          rfl

/-! ## Noting and forgetting

The two operations are told by look-ups. Noting a source that is listed keeps the path as it was
written first and changes the digest. Whatever a record is made from, its sources stay known by the
parts of their paths, which is `Keyed`, and legible sources leave it legible. -/

/-- What is found after a source was noted. -/
theorem find?_note (r : Record) (p : Path) (digest : String) (key : List Path.Part) :
    (r.note p digest).find? key =
      if key = p.parts then
        some (match r.find? p.parts with
          | some old => { old with digest := digest }
          | none => ⟨p, digest⟩)
      else r.find? key :=
  OrderedMap.find?_alter r p.parts key _

/-- A listed source was listed before, or it was noted just now, under the path that it had if it
was listed already. -/
theorem note_cases {r : Record} {p : Path} {digest : String} {key : List Path.Part}
    {s : RecordedSource} (h : (r.note p digest).find? key = some s) :
    r.find? key = some s ∨ key = p.parts ∧
      (s = ⟨p, digest⟩ ∨ ∃ old, r.find? key = some old ∧ s = { old with digest := digest }) := by
  rw [find?_note] at h
  split at h
  · rename_i hkey
    subst hkey
    rcases hold : r.find? p.parts with _ | old <;> rw [hold] at h <;> cases h
    · exact Or.inr ⟨rfl, Or.inl rfl⟩
    · exact Or.inr ⟨rfl, Or.inr ⟨old, rfl, rfl⟩⟩
  · exact Or.inl h

/-- What is found after a source was forgotten: all but that source. -/
theorem find?_forget (r : Record) (p : Path) (key : List Path.Part) :
    (r.forget p).find? key = if key = p.parts then none else r.find? key :=
  OrderedMap.find?_erase r p.parts key

/-- What is listed still has another path. -/
theorem find?_of_forget {r : Record} {p : Path} {key : List Path.Part} {s : RecordedSource}
    (h : (r.forget p).find? key = some s) : key ≠ p.parts ∧ r.find? key = some s := by
  rw [find?_forget] at h
  split at h
  · cases h
  · rename_i hne
    exact ⟨hne, h⟩

/-- The digest of a source that was just noted. -/
theorem digest_note (r : Record) (p : Path) (digest : String) (key : List Path.Part) :
    ((r.note p digest).find? key).map (·.digest) =
      if key = p.parts then some digest else (r.find? key).map (·.digest) := by
  rw [find?_note]
  split
  · cases r.find? p.parts <;> rfl
  · rfl

/-- Noting a source keeps it true that sources are known by the parts of their paths. -/
theorem key_eq_of_note {r : Record} (h : ∀ key s, r.find? key = some s → key = s.path.parts)
    {p : Path} {digest : String} {key : List Path.Part} {s : RecordedSource}
    (hs : (r.note p digest).find? key = some s) : key = s.path.parts := by
  rcases note_cases hs with hs | ⟨hkey, rfl | ⟨old, hold, rfl⟩⟩
  · exact h key s hs
  · exact hkey
  · exact h key old hold

/-- Sources are known by the parts of their paths. -/
def Keyed (r : Record) : Prop := ∀ key s, r.find? key = some s → key = s.path.parts

/-- In a legible record sources are known by the parts of their paths. -/
theorem Legible.keyed {r : Record} (h : r.Legible) : r.Keyed := h.key_eq

theorem keyed_empty : Keyed ∅ := fun _ _ h => by cases h

theorem Keyed.note {r : Record} (h : r.Keyed) (p : Path) (digest : String) :
    (r.note p digest).Keyed := fun _ _ hs => key_eq_of_note h hs

theorem Keyed.forget {r : Record} (h : r.Keyed) (p : Path) : (r.forget p).Keyed :=
  fun key s hs => h key s (find?_of_forget hs).2

theorem Keyed.foldl_note {es : List (String × Path)} {r : Record} (h : r.Keyed) :
    (es.foldl (fun r e => r.note e.2 e.1) r).Keyed := by
  induction es generalizing r with
  | nil => exact h
  | cons e es ih => exact ih (h.note e.2 e.1)

/-- Whatever the text is, sources that are read from it are known by the parts of their paths. -/
theorem keyed_read (text : String) : (read text).Keyed := keyed_empty.foldl_note

/-- A record stays legible when a source with a legible line is noted. If it was listed already it
keeps its path, which had the same parts and a legible line. -/
theorem Legible.note {r : Record} (h : r.Legible) {p : Path} {digest : String}
    (hs : RecordedSource.Legible ⟨p, digest⟩) : (r.note p digest).Legible where
  key_eq := fun key s hkey => key_eq_of_note h.key_eq hkey
  line := by
    intro key s hkey
    rcases note_cases hkey with hkey | ⟨-, rfl | ⟨old, hold, rfl⟩⟩
    · exact h.line key s hkey
    · exact hs
    · have hline := h.line key old hold
      exact ⟨hs.digest_ne_empty, hs.blank_not_mem, hs.feed_not_mem_digest, hline.path_ne_empty,
        hline.feed_not_mem_path, hline.getLast?_ne⟩

theorem Legible.forget {r : Record} (h : r.Legible) (p : Path) : (r.forget p).Legible where
  key_eq := fun key s hkey => h.key_eq key s (find?_of_forget hkey).2
  line := fun key s hkey => h.line key s (find?_of_forget hkey).2

/-! ## Listed paths

What a session may delete are the paths of the record it found, whatever text that was read from.
Such a path is not empty and holds no line feed, since it is a piece of a line, and that is all that
can be said of it. -/

/-- A path is listed if some source has it. -/
theorem mem_paths_iff {r : Record} {p : Path} :
    p ∈ r.paths ↔ ∃ key s, r.find? key = some s ∧ s.path = p := by
  rw [paths, List.mem_map]
  constructor
  · rintro ⟨s, hs, hp⟩
    obtain ⟨key, hkey⟩ := OrderedMap.mem_values_iff.1 hs
    exact ⟨key, s, hkey, hp⟩
  · rintro ⟨key, s, hkey, hp⟩
    exact ⟨s, OrderedMap.mem_values_iff.2 ⟨key, hkey⟩, hp⟩

/-- Noting lists at most one path more. -/
theorem mem_paths_of_note {r : Record} {p q : Path} {digest : String}
    (h : q ∈ (r.note p digest).paths) : q ∈ r.paths ∨ q = p := by
  obtain ⟨key, s, hs, rfl⟩ := mem_paths_iff.1 h
  rcases note_cases hs with hs | ⟨-, rfl | ⟨old, hold, rfl⟩⟩
  · exact Or.inl (mem_paths_iff.2 ⟨key, s, hs, rfl⟩)
  · exact Or.inr rfl
  · exact Or.inl (mem_paths_iff.2 ⟨key, old, hold, rfl⟩)

theorem mem_paths_of_forget {r : Record} {p q : Path} (h : q ∈ (r.forget p).paths) :
    q ∈ r.paths := by
  obtain ⟨key, s, hs, rfl⟩ := mem_paths_iff.1 h
  exact mem_paths_iff.2 ⟨key, s, (find?_of_forget hs).2, rfl⟩

/-- What is listed after noting many was listed before or is among them. -/
theorem mem_paths_of_foldl_note {es : List (String × Path)} {r : Record} {q : Path}
    (h : q ∈ (es.foldl (fun r e => r.note e.2 e.1) r).paths) :
    q ∈ r.paths ∨ ∃ e ∈ es, e.2 = q := by
  induction es generalizing r with
  | nil => exact Or.inl h
  | cons e es ih =>
    rcases ih h with hq | ⟨e', he', rfl⟩
    · rcases mem_paths_of_note hq with hq | rfl
      · exact Or.inl hq
      · exact Or.inr ⟨e, List.mem_cons_self, rfl⟩
    · exact Or.inr ⟨e', List.mem_cons_of_mem e he', rfl⟩

/-- The path of a line is written with characters of the line. -/
theorem readLine_subset {line : List Char} {digest : String} {p : Path}
    (h : readLine line = some (digest, p)) : p.text.toList ⊆ line := by
  rw [readLine] at h
  split at h
  · rename_i before after hcut
    split at h
    · cases h
    · cases h
      rw [Text.cutAt_eq_some hcut, String.toList_ofList]
      exact List.Subset.trans (List.subset_cons_self _ _) (List.subset_append_right _ _)
  · cases h

/-- Whatever the text is, no path that is read from it is empty. -/
theorem text_ne_empty_of_mem_paths_read {text : String} {p : Path} (h : p ∈ (read text).paths) :
    p.text ≠ "" := by
  rw [read_eq_foldl] at h
  rcases mem_paths_of_foldl_note h with h | ⟨e, he, rfl⟩
  · cases h
  · obtain ⟨line, -, hread⟩ := List.mem_filterMap.1 he
    rw [readLine] at hread
    split at hread
    · rename_i digest path hcut
      split at hread
      · cases hread
      · rename_i hne
        cases hread
        exact mt String.ofList_eq_empty_iff.1 (not_or.1 hne).2
    · cases hread

/-- Whatever the text is, no path that is read from it holds a line feed. -/
theorem feed_not_mem_of_mem_paths_read {text : String} {p : Path} (h : p ∈ (read text).paths) :
    '\n' ∉ p.text.toList := by
  rw [read_eq_foldl] at h
  rcases mem_paths_of_foldl_note h with h | ⟨e, he, rfl⟩
  · cases h
  · obtain ⟨line, hline, hread⟩ := List.mem_filterMap.1 he
    exact fun hfeed => Text.feed_not_mem_of_mem_lines hline (readLine_subset hread hfeed)

end Record

end PlatformWiring
