import Mathlib.Data.List.Basic
import PlatformWiring.Output.Path
import PlatformWiring.Proofs.Text.Split

/-!
# Parts of paths

A path whose parts are all names begins with a piece that is a name, and leaving out its last
part is what `parent?` does. The text of the parent begins the text of the path, so that the
parent can be looked up whenever the path can.
-/

namespace PlatformWiring

namespace Path

/-! ## Pieces and parts

The text of a path is cut at its slashes into pieces, and a piece stands for a part or for nothing.
An empty piece stands for the root if the text begins with it and for nothing elsewhere, and a
single full stop stands for a part only in front. So a path made of names can be read off its pieces
as soon as the first piece is a name, and the other way round. A name is a piece as it is written,
which is how texts of parts are compared with the text of the path. -/

/-- A piece is a name unless it is empty or made of one or two full stops. -/
theorem part?_eq_name_iff {piece : List Char} {s : String} :
    part? piece = some (.name s) ↔
      piece ≠ [] ∧ piece ≠ ['.'] ∧ piece ≠ ['.', '.'] ∧ s = String.ofList piece := by
  unfold part?
  by_cases h : piece = [] ∨ piece = ['.']
  · rw [if_pos h]
    rcases h with rfl | rfl <;> simp
  · obtain ⟨h₁, h₂⟩ := not_or.1 h
    rw [if_neg h]
    by_cases h₃ : piece = ['.', '.']
    · simp [h₃]
    · rw [if_neg h₃]
      simp [h₁, h₂, h₃, eq_comm]

/-- The pieces of a path hold no slash. -/
theorem not_mem_slash_of_mem_slices {p : Path} {piece : List Char} (h : piece ∈ p.slices) :
    '/' ∉ piece := fun hc => (Text.mem_of_mem_pieces h '/' hc).2 rfl

/-- The pieces joined by slashes are the text. -/
theorem text_eq_unpieces (p : Path) : p.text.toList = Text.unpieces '/' p.slices :=
  (Text.unpieces_pieces '/' p.text.toList).symm

/-- Pieces without slashes are what the text joined of them is cut into. -/
theorem slices_ofList_unpieces {ps : List (List Char)} (hne : ps ≠ [])
    (h : ∀ piece ∈ ps, '/' ∉ piece) :
    Path.slices ⟨String.ofList (Text.unpieces '/' ps)⟩ = ps := by
  rw [slices, String.toList_ofList]
  exact Text.pieces_unpieces hne h

/-- A path whose first piece is a name has a part for each piece that stands for one. -/
theorem parts_of_slices {p : Path} {first : List Char} {others : List (List Char)} {n : String}
    (hs : p.slices = first :: others) (hfirst : part? first = some (.name n)) :
    p.parts = .name n :: others.filterMap part? := by
  obtain ⟨h₁, h₂, -, -⟩ := part?_eq_name_iff.1 hfirst
  rw [parts, hs]
  simp [lead, h₁, h₂, hfirst]

/-- Conversely, a path whose first part is a name begins with the piece of that name. -/
theorem slices_of_parts {p : Path} {n : String} {rest : List Part}
    (h : p.parts = .name n :: rest) :
    ∃ first others, p.slices = first :: others ∧ part? first = some (.name n) ∧
      others.filterMap part? = rest := by
  rcases hs : p.slices with _ | ⟨first, others⟩
  · exact absurd hs (Text.pieces_ne_nil _ _)
  · refine ⟨first, others, rfl, ?_⟩
    rw [parts, hs] at h
    simp only at h
    rcases hf : part? first with _ | x
    · -- a first piece without a part is empty or a full stop, and then no name comes first
      exfalso
      have hempty : first = [] ∨ first = ['.'] := by
        by_contra hne
        rw [part?, if_neg hne] at hf
        split at hf <;> cases hf
      rcases hempty with rfl | rfl
      · cases others with
        | nil => simp [lead, part?] at h
        | cons o os => simp [lead] at h
      · simp [lead] at h
    · rw [List.filterMap_cons, hf] at h
      unfold lead at h
      split at h
      · cases h
      · split at h
        · cases h
        · simp only [List.nil_append, List.cons.injEq] at h
          exact ⟨by rw [h.1], h.2⟩

/-- A name in a path is a piece of its text. -/
theorem infix_text_of_mem_parts {p : Path} {n : String} (h : Part.name n ∈ p.parts) :
    n.toList <:+: p.text.toList := by
  have hmem : Part.name n ∈ p.slices.filterMap part? := by
    rcases hs : p.slices with _ | ⟨first, others⟩
    · simp [parts, hs] at h
    · rw [parts, hs] at h
      rcases List.mem_append.1 h with h | h
      · unfold lead at h
        split at h
        · simp at h
        · split at h <;> simp at h
      · exact h
  obtain ⟨piece, hpiece, hpart⟩ := List.mem_filterMap.1 hmem
  obtain ⟨-, -, -, rfl⟩ := part?_eq_name_iff.1 hpart
  rw [String.toList_ofList]
  exact Text.infix_of_mem_pieces hpiece

/-- A path whose last piece is a name ends in that name. -/
theorem getLast?_parts_of_slices {p : Path} {init : List (List Char)} {last : List Char}
    {n : String} (hs : p.slices = init ++ [last]) (hlast : part? last = some (.name n)) :
    p.parts.getLast? = some (.name n) := by
  rcases hslices : p.slices with _ | ⟨first, others⟩
  · simp [hslices] at hs
  · have hparts : p.parts = lead first others ++ p.slices.filterMap part? := by
      simp only [parts, hslices]
    simp [hparts, hs, hlast]

/-- A path that ends in neither a slash nor a full stop ends in a name, with the same character. -/
theorem exists_getLast?_parts {p : Path} {c : Char} (h : p.text.toList.getLast? = some c)
    (hslash : c ≠ '/') (hstop : c ≠ '.') :
    ∃ n : String, p.parts.getLast? = some (.name n) ∧ n.toList.getLast? = some c := by
  rw [text_eq_unpieces] at h
  obtain ⟨init, last, hs, hlast⟩ := Text.exists_getLast?_piece h hslash
  refine ⟨String.ofList last, getLast?_parts_of_slices hs ?_, by rwa [String.toList_ofList]⟩
  rw [part?_eq_name_iff]
  refine ⟨?_, ?_, ?_, rfl⟩ <;> rintro rfl
  · cases hlast
  · exact hstop (Option.some.inj hlast).symm
  · exact hstop (Option.some.inj hlast).symm

/-- The path does not begin with a full stop and goes up nowhere. -/
def Undotted (p : Path) : Prop := Part.here ∉ p.parts ∧ Part.up ∉ p.parts

instance (p : Path) : Decidable p.Undotted :=
  inferInstanceAs (Decidable (Part.here ∉ p.parts ∧ Part.up ∉ p.parts))

/-- Behind the first piece there is no root and no full stop as a part, so where nothing leads up
there are names only. -/
theorem filterMap_part?_of_up_not_mem {ps : List (List Char)} (h : Part.up ∉ ps.filterMap part?) :
    ∃ names : List String, ps.filterMap part? = names.map .name := by
  induction ps with
  | nil => exact ⟨[], rfl⟩
  | cons piece ps ih =>
    rcases hpart : part? piece with _ | part
    · rw [List.filterMap_cons, hpart] at h ⊢
      exact ih h
    · rw [List.filterMap_cons, hpart] at h ⊢
      obtain ⟨names, hnames⟩ := ih fun hup => h (List.mem_cons_of_mem part hup)
      obtain ⟨n, rfl⟩ : ∃ n, part = .name n := by
        unfold part? at hpart
        split at hpart
        · cases hpart
        · split at hpart
          · cases hpart
            exact absurd List.mem_cons_self h
          · cases hpart
            exact ⟨_, rfl⟩
      exact ⟨n :: names, by rw [hnames, List.map_cons]⟩

/-- A path without such parts begins with a slash or is made of names. -/
theorem Undotted.parts_cases {p : Path} (h : p.Undotted) (hne : p.text ≠ "") :
    (∃ rest, p.parts = .root :: rest) ∨
      ∃ dirs file, p.parts = (dirs ++ [file]).map .name := by
  obtain ⟨hhere, hup⟩ := h
  rcases hs : p.slices with _ | ⟨first, others⟩
  · exact absurd hs (Text.pieces_ne_nil _ _)
  have hparts : p.parts = lead first others ++ (first :: others).filterMap part? := by
    rw [parts, hs]
  rw [hparts] at hhere hup ⊢
  unfold lead at hhere ⊢
  split
  · exact Or.inl ⟨_, rfl⟩
  rename_i hroot
  split
  · rename_i hdot
    rw [if_neg hroot, if_pos hdot] at hhere
    exact absurd (List.mem_append_left _ List.mem_cons_self) hhere
  rename_i hdot
  right
  obtain ⟨names, hnames⟩ :=
    filterMap_part?_of_up_not_mem fun hmem => hup (List.mem_append_right _ hmem)
  -- the first piece is a name, unless the text is empty
  have hnonempty : names ≠ [] := by
    rintro rfl
    have hfirst : first = [] := by
      by_contra hfirst
      have hpart := List.filterMap_eq_nil_iff.1 hnames first List.mem_cons_self
      simp [part?, hfirst, hdot] at hpart
      split at hpart <;> cases hpart
    have hothers : others = [] := by
      by_contra hothers
      exact hroot ⟨hfirst, hothers⟩
    refine hne ?_
    rw [← String.toList_eq_nil_iff, text_eq_unpieces, hs, hfirst, hothers]
    rfl
  obtain ⟨dirs, file, rfl⟩ := (List.eq_nil_or_concat' names).resolve_left hnonempty
  exact ⟨dirs, file, by rw [List.nil_append, hnames]⟩

/-! ## Dropping pieces that stand for nothing

The parent of a path is found by dropping pieces at its end: first those that stand for nothing,
then the last part, and then once more those that stand for nothing. Dropping keeps a beginning of
the list, and with it a beginning of the text. -/

/-- What is left is a beginning. -/
theorem trimEnd_isPrefix (ps : List (List Char)) : trimEnd ps <+: ps := by
  induction ps with
  | nil => exact List.prefix_refl _
  | cons p ps ih =>
    rw [trimEnd]
    split
    · split
      · exact List.cons_prefix_cons.2 ⟨rfl, List.nil_prefix⟩
      · exact List.nil_prefix
    · exact List.cons_prefix_cons.2 ⟨rfl, ih⟩

/-- No part is dropped with it. -/
theorem filterMap_trimEnd (ps : List (List Char)) :
    (trimEnd ps).filterMap part? = ps.filterMap part? := by
  induction ps with
  | nil => rfl
  | cons p ps ih =>
    rw [trimEnd]
    split
    · rename_i h
      rw [h] at ih
      split
      · rw [List.filterMap_cons, List.filterMap_cons, ← ih]
      · rename_i hp
        have hp : part? p = none := by simpa using hp
        rw [List.filterMap_cons, hp, ← ih]
    · rw [List.filterMap_cons, List.filterMap_cons, ih]

/-- What is left ends in a piece that stands for a part. -/
theorem exists_part?_of_trimEnd {ps : List (List Char)} (h : trimEnd ps ≠ []) :
    ∃ init last x, trimEnd ps = init ++ [last] ∧ part? last = some x := by
  induction ps with
  | nil => exact absurd rfl h
  | cons p ps ih =>
    rw [trimEnd] at h ⊢
    rcases ht : trimEnd ps with _ | ⟨q, qs⟩
    · rw [ht] at h
      rcases hp : part? p with _ | x
      · simp [hp] at h
      · exact ⟨[], p, x, by simp, hp⟩
    · obtain ⟨init, last, x, hinit, hx⟩ := ih (by rw [ht]; simp)
      exact ⟨p :: init, last, x, by rw [List.cons_append, ← hinit, ht], hx⟩

/-! ## The parent of a path of names

For a path of names this leaves out the last name. What has to be shown besides is that the parent
can be looked up where the path can: it ends in a name again, and its text begins the text of the
path, so that it is no longer and holds no character that the path does not hold. -/

/-- The parent of a single name is the path without a text. -/
theorem parent?_of_trimEnd_nil {p : Path} {first : List Char} {others : List (List Char)}
    (hs : p.slices = first :: others) (hne : first ≠ []) (ht : trimEnd others = []) :
    p.parent? = some ⟨""⟩ := by
  simp [parent?, hs, ht, hne]

/-- Otherwise the parent is what stands before the last part. -/
theorem parent?_of_trimEnd {p : Path} {first last : List Char} {others init : List (List Char)}
    (hs : p.slices = first :: others) (hne : first ≠ []) (ht : trimEnd others = init ++ [last]) :
    p.parent? = some ⟨String.ofList (Text.unpieces '/' (first :: trimEnd init))⟩ := by
  rw [parent?, hs]
  simp only [ht, hne, if_false]
  rcases hi : init ++ [last] with _ | ⟨o, os⟩
  · simp at hi
  · simp only [← hi, List.dropLast_concat]
    rcases trimEnd init with _ | ⟨k, ks⟩ <;> rfl

/-- A path that is written with pieces of which the first and the last are names. -/
theorem parts_ofList_unpieces {first : List Char} {kept : List (List Char)} {n : String}
    (hslash : ∀ piece ∈ first :: kept, '/' ∉ piece) (hfirst : part? first = some (.name n)) :
    Path.parts ⟨String.ofList (Text.unpieces '/' (first :: kept))⟩ =
      .name n :: kept.filterMap part? :=
  parts_of_slices (slices_ofList_unpieces (List.cons_ne_nil _ _) hslash) hfirst

/-- A path whose last piece is a name ends in a name. -/
theorem endsInName_of_slices {p : Path} {init : List (List Char)} {last : List Char} {s : String}
    (hs : p.slices = init ++ [last]) (hlast : part? last = some (.name s)) :
    p.endsInName = true := by
  obtain ⟨h₁, h₂, h₃, -⟩ := part?_eq_name_iff.1 hlast
  simp [endsInName, hs, List.filter_append, h₁, h₂, h₃]

/-- The parent of a path of names leaves out the last name. Its text begins the text of the
path. -/
theorem exists_parent?_of_names {p : Path} {dirs : List String} {s : String}
    (h : p.parts = (dirs ++ [s]).map .name) :
    ∃ q, p.parent? = some q ∧ q.parts = dirs.map .name ∧ (dirs ≠ [] → q.endsInName = true) ∧
      q.text.toList <+: p.text.toList := by
  obtain ⟨n, rest, hn⟩ : ∃ n rest, dirs ++ [s] = n :: rest := List.exists_cons_of_ne_nil (by simp)
  obtain ⟨first, others, hs, hfirst, hothers⟩ :=
    slices_of_parts (h.trans (by rw [hn, List.map_cons]))
  obtain ⟨hne, -, -, -⟩ := part?_eq_name_iff.1 hfirst
  rw [← filterMap_trimEnd] at hothers
  rcases ht : trimEnd others with _ | ⟨o, os⟩
  · -- no part follows the first one
    rw [ht] at hothers
    obtain rfl : rest = [] := by simpa using hothers.symm
    obtain rfl : dirs = [] := by
      rcases dirs with _ | ⟨d, _ | ⟨d', ds⟩⟩
      · rfl
      · simp at hn
      · simp at hn
    exact ⟨⟨""⟩, parent?_of_trimEnd_nil hs hne ht, rfl, fun h => absurd rfl h, List.nil_prefix⟩
  · have hothers' : trimEnd others ≠ [] := by
      rw [ht]
      simp
    obtain ⟨init, last, x, hinit, hx⟩ := exists_part?_of_trimEnd hothers'
    refine ⟨_, parent?_of_trimEnd hs hne hinit, ?_⟩
    have hkept : first :: trimEnd init <+: first :: others :=
      List.cons_prefix_cons.2 ⟨rfl, (trimEnd_isPrefix init).trans
        ((List.prefix_append init [last]).trans (hinit ▸ trimEnd_isPrefix others))⟩
    have hslash : ∀ piece ∈ first :: trimEnd init, '/' ∉ piece := fun piece hp =>
      not_mem_slash_of_mem_slices (hs ▸ hkept.subset hp)
    have hparts := parts_ofList_unpieces hslash hfirst
    have hdirs : .name n :: (trimEnd init).filterMap part? = dirs.map Part.name := by
      have hall : (.name n :: (trimEnd init).filterMap part?) ++ [x] =
          dirs.map Part.name ++ [.name s] := by
        rw [hinit, List.filterMap_append, List.filterMap_cons, hx] at hothers
        rw [filterMap_trimEnd, List.cons_append, ← List.map_singleton, ← List.map_append, hn,
          List.map_cons, ← hothers]
        rfl
      exact (List.append_inj' hall rfl).1
    refine ⟨hparts.trans hdirs, fun _ => ?_, ?_⟩
    · -- the last piece that is kept stands for one of the names
      have hslices := slices_ofList_unpieces (List.cons_ne_nil _ _) hslash
      rcases hk : trimEnd init with _ | ⟨k, ks⟩
      · rw [hk] at hslices
        rw [← List.nil_append [first]] at hslices
        exact endsInName_of_slices hslices hfirst
      · have hinit : trimEnd init ≠ [] := by
          rw [hk]
          simp
        obtain ⟨init', last', y, hinit', hy⟩ := exists_part?_of_trimEnd hinit
        have hmem : y ∈ dirs.map Part.name := by
          rw [← hdirs, hinit', List.filterMap_append, List.filterMap_cons, hy]
          simp
        obtain ⟨m, -, rfl⟩ := List.mem_map.1 hmem
        rw [hinit', ← List.cons_append] at hslices
        rw [← hk, hinit', ← List.cons_append]
        exact endsInName_of_slices hslices hy
    · rw [String.toList_ofList, text_eq_unpieces, hs]
      exact Text.unpieces_prefix hkept

end Path

end PlatformWiring
