import PlatformWiring.Text.Split

/-!
# Cutting and joining

Cutting distributes over the separators of a text, so that `pieces` and `unpieces` are
inverse to each other on pieces without separator, and the lines of a text that was put
together from lines are those lines.
-/

namespace PlatformWiring.Text

variable {sep : Char}

/-! ## Pieces

A separator between two texts separates their pieces as well. So a text of pieces without separators
is cut into these pieces again, and what is joined can be cut and what is cut can be joined. Adding
to the end of a text adds to its last piece only. -/

/-- At a separator the pieces of the two sides part. -/
theorem pieces_append_sep (a b : List Char) :
    pieces sep (a ++ sep :: b) = pieces sep a ++ pieces sep b := by
  induction a with
  | nil => simp [pieces]
  | cons c a ih =>
    rw [List.cons_append, pieces, pieces, ih]
    split
    · rfl
    · rcases hp : pieces sep a with _ | ⟨p, ps⟩
      · exact absurd hp (pieces_ne_nil sep a)
      · rfl

/-- A text without separators is one piece. -/
theorem pieces_of_not_mem {a : List Char} (h : sep ∉ a) : pieces sep a = [a] := by
  induction a with
  | nil => rfl
  | cons c a ih =>
    rw [List.mem_cons, not_or] at h
    have hc : ¬c = sep := fun e => h.1 e.symm
    simp [pieces, hc, ih h.2]

/-- What is added without a separator goes to the last piece. -/
theorem pieces_append_of_not_mem {a b l : List Char} {init : List (List Char)} (h : sep ∉ b)
    (ha : pieces sep a = init ++ [l]) : pieces sep (a ++ b) = init ++ [l ++ b] := by
  induction a generalizing init l with
  | nil =>
    rw [pieces] at ha
    have ha : [] ++ [[]] = init ++ [l] := ha
    obtain ⟨rfl, hl⟩ := List.append_inj' ha rfl
    obtain rfl : [] = l := by simpa using hl
    exact pieces_of_not_mem h
  | cons c a ih =>
    rw [pieces] at ha
    rw [List.cons_append, pieces]
    split
    · rename_i hc
      rw [if_pos hc] at ha
      cases init with
      | nil => exact absurd (List.cons.inj ha).2 (pieces_ne_nil sep a)
      | cons p init =>
        obtain ⟨rfl, hrest⟩ := List.cons.inj ha
        rw [ih hrest, List.cons_append]
    · rename_i hc
      rw [if_neg hc] at ha
      rcases hp : pieces sep a with _ | ⟨q, qs⟩
      · exact absurd hp (pieces_ne_nil sep a)
      · rw [hp] at ha
        cases init with
        | nil =>
          obtain ⟨rfl, rfl⟩ := List.cons.inj ha
          rw [← List.nil_append [q]] at hp
          rw [ih hp]
          rfl
        | cons p init =>
          obtain ⟨rfl, rfl⟩ := List.cons.inj ha
          have hp : pieces sep a = (q :: init) ++ [l] := hp
          rw [ih hp]
          rfl

theorem unpieces_cons {p : List Char} {ps : List (List Char)} (h : ps ≠ []) :
    unpieces sep (p :: ps) = p ++ sep :: unpieces sep ps := by
  cases ps with
  | nil => exact absurd rfl h
  | cons q qs => rfl

/-- Pieces without separators that were joined are cut again. -/
theorem pieces_unpieces {ps : List (List Char)} (hne : ps ≠ []) (h : ∀ p ∈ ps, sep ∉ p) :
    pieces sep (unpieces sep ps) = ps := by
  induction ps with
  | nil => exact absurd rfl hne
  | cons p ps ih =>
    have hp : sep ∉ p := h p (by simp)
    cases ps with
    | nil => exact pieces_of_not_mem hp
    | cons q qs =>
      rw [unpieces_cons (List.cons_ne_nil q qs), pieces_append_sep, pieces_of_not_mem hp,
        ih (by simp) fun p hp => h p (List.mem_cons_of_mem _ hp), List.singleton_append]

/-- The pieces consist of the characters of the text other than the separator. -/
theorem mem_of_mem_pieces {cs p : List Char} (h : p ∈ pieces sep cs) :
    ∀ c ∈ p, c ∈ cs ∧ c ≠ sep := by
  induction cs generalizing p with
  | nil =>
    rw [pieces, List.mem_singleton] at h
    subst h
    simp
  | cons d cs ih =>
    have lift : ∀ q ∈ pieces sep cs, ∀ c ∈ q, c ∈ d :: cs ∧ c ≠ sep := fun q hq c hc =>
      ⟨List.mem_cons_of_mem _ (ih hq c hc).1, (ih hq c hc).2⟩
    rw [pieces] at h
    split at h
    · rcases List.mem_cons.1 h with rfl | h
      · simp
      · exact lift p h
    · rename_i hd
      rcases hp : pieces sep cs with _ | ⟨q, qs⟩
      · exact absurd hp (pieces_ne_nil sep cs)
      · rw [hp] at h lift
        rcases List.mem_cons.1 h with rfl | h
        · intro c hc
          rcases List.mem_cons.1 hc with rfl | hc
          · exact ⟨by simp, hd⟩
          · exact lift q (by simp) c hc
        · exact lift p (List.mem_cons_of_mem _ h)

/-- Cutting where another separator stood. -/
theorem pieces_replace {a b : Char} {cs : List Char} (h : b ∉ cs) :
    pieces b (cs.map fun c => if c = a then b else c) = pieces a cs := by
  induction cs with
  | nil => rfl
  | cons c cs ih =>
    rw [List.mem_cons, not_or] at h
    have hc : ¬c = b := fun e => h.1 e.symm
    rw [List.map_cons, pieces, pieces, ih h.2]
    by_cases ha : c = a
    · simp [ha]
    · simp [ha, hc]

/-- Each piece stands in the joined text. -/
theorem infix_unpieces {p : List Char} {ps : List (List Char)} (h : p ∈ ps) :
    p <:+: unpieces sep ps := by
  induction ps with
  | nil => cases h
  | cons q ps ih =>
    rcases List.mem_cons.1 h with rfl | h
    · cases ps with
      | nil => exact List.infix_refl _
      | cons r ps => exact (List.prefix_append _ _).isInfix
    · rw [unpieces_cons (List.ne_nil_of_mem h)]
      exact (ih h).trans ((List.suffix_cons _ _).trans (List.suffix_append _ _)).isInfix

/-- What the pieces end in is what the last of them ends in, unless it is the separator. -/
theorem exists_getLast?_piece {ps : List (List Char)} {c : Char}
    (h : (unpieces sep ps).getLast? = some c) (hc : c ≠ sep) :
    ∃ init last, ps = init ++ [last] ∧ last.getLast? = some c := by
  induction ps with
  | nil => cases h
  | cons p ps ih =>
    cases ps with
    | nil => exact ⟨[], p, rfl, h⟩
    | cons q qs =>
      rw [unpieces_cons (List.cons_ne_nil q qs), List.getLast?_append, List.getLast?_cons,
        Option.some_or, Option.some.injEq] at h
      rcases hlast : (unpieces sep (q :: qs)).getLast? with _ | d <;> rw [hlast] at h
      · exact absurd h.symm hc
      · obtain ⟨init, last, he, hend⟩ := ih (hlast.trans (congrArg some h))
        exact ⟨p :: init, last, by rw [he]; rfl, hend⟩

theorem infix_of_mem_pieces {cs p : List Char} (h : p ∈ pieces sep cs) : p <:+: cs :=
  unpieces_pieces sep cs ▸ infix_unpieces h

theorem unpieces_prefix {ps qs : List (List Char)} (h : ps <+: qs) :
    unpieces sep ps <+: unpieces sep qs := by
  induction ps generalizing qs with
  | nil => exact List.nil_prefix
  | cons p ps ih =>
    obtain ⟨q, qs, rfl⟩ := List.exists_cons_of_ne_nil (h.ne_nil (by simp))
    obtain ⟨rfl, hrest⟩ := List.cons_prefix_cons.1 h
    cases ps with
    | nil =>
      cases qs with
      | nil => exact List.prefix_refl _
      | cons r rs =>
        rw [unpieces, unpieces_cons (List.cons_ne_nil r rs)]
        exact List.prefix_append _ _
    | cons p' ps =>
      obtain ⟨r, rs, rfl⟩ := List.exists_cons_of_ne_nil (hrest.ne_nil (by simp))
      rw [unpieces_cons (List.cons_ne_nil p' ps), unpieces_cons (List.cons_ne_nil r rs)]
      exact (List.prefix_append_right_inj _).2 (List.cons_prefix_cons.2 ⟨rfl, ih hrest⟩)

/-! ## Lines

Segments keep their line breaks and lines do not, and a carriage return before the line feed goes
with it. So a list of lines can be read back if none of them holds a line feed or ends in a carriage
return; the other two facts needed are what a file that was cut off is read as, and how many
segments stand above a place. For both it is useful to say that a text ends with a line feed or is
empty, since the segments of such a text are not touched by what follows it. -/

/-- The first segment ends with the first line feed. -/
theorem segments_append {l : List Char} (h : '\n' ∉ l) (rest : List Char) :
    segments (l ++ '\n' :: rest) = (l ++ ['\n']) :: segments rest := by
  induction l with
  | nil => simp [segments]
  | cons c l ih =>
    rw [List.mem_cons, not_or] at h
    have hc : ¬c = '\n' := fun e => h.1 e.symm
    rw [List.cons_append, segments, if_neg hc, ih h.2]
    rfl

theorem dropTrailing_append_singleton (c : Char) (l : List Char) :
    dropTrailing c (l ++ [c]) = l := by
  induction l with
  | nil => simp [dropTrailing]
  | cons d l ih =>
    cases l with
    | nil => simp [dropTrailing]
    | cons e l =>
      rw [List.cons_append, List.cons_append, dropTrailing]
      exact congrArg (d :: ·) ih

theorem dropTrailing_of_getLast?_ne {c : Char} {l : List Char} (h : l.getLast? ≠ some c) :
    dropTrailing c l = l := by
  induction l with
  | nil => rfl
  | cons d l ih =>
    cases l with
    | nil =>
      have hd : ¬d = c := fun e => h (by simp [e])
      simp [dropTrailing, hd]
    | cons e l =>
      rw [dropTrailing]
      exact congrArg (d :: ·) (ih (by simpa using h))

/-- A line that holds no line feed and does not end in a carriage return is read back. -/
theorem lines_append {l : List Char} (hfeed : '\n' ∉ l) (hreturn : l.getLast? ≠ some '\r')
    (rest : List Char) : lines (l ++ '\n' :: rest) = l :: lines rest := by
  rw [lines, segments_append hfeed, List.map_cons, if_pos (by simp), lineContent,
    dropTrailing_append_singleton, dropTrailing_of_getLast?_ne hreturn]
  rfl

/-- Such lines are read back, as many as there are. -/
theorem lines_flatMap {ls : List (List Char)} (hfeed : ∀ l ∈ ls, '\n' ∉ l)
    (hreturn : ∀ l ∈ ls, l.getLast? ≠ some '\r') :
    lines (ls.flatMap fun l => l ++ ['\n']) = ls := by
  induction ls with
  | nil => rfl
  | cons l ls ih =>
    rw [List.flatMap_cons, List.append_assoc, List.singleton_append,
      lines_append (hfeed l (by simp)) (hreturn l (by simp)),
      ih (fun l hl => hfeed l (List.mem_cons_of_mem _ hl))
        fun l hl => hreturn l (List.mem_cons_of_mem _ hl)]

theorem segments_of_not_mem {l : List Char} (h : '\n' ∉ l) (hne : l ≠ []) : segments l = [l] := by
  induction l with
  | nil => exact absurd rfl hne
  | cons c l ih =>
    rw [List.mem_cons, not_or] at h
    have hc : ¬c = '\n' := fun e => h.1 e.symm
    rw [segments, if_neg hc]
    cases l with
    | nil => rfl
    | cons d l => rw [ih h.2 (List.cons_ne_nil d l)]

/-- A text without line feeds is one line, which keeps a carriage return at its end. -/
theorem lines_of_not_mem {l : List Char} (h : '\n' ∉ l) (hne : l ≠ []) : lines l = [l] := by
  have hlast : l.getLast? ≠ some '\n' := fun he => h (List.mem_of_getLast? he)
  rw [lines, segments_of_not_mem h hne, List.map_singleton, if_neg hlast]

/-- The text is empty or ends in a line feed. -/
def Terminated (cs : List Char) : Prop := ∀ c, cs.getLast? = some c → c = '\n'

namespace Terminated

variable {cs : List Char}

/-- What is terminated depends on the rest behind a line feed. -/
theorem append_feed_iff {l rest : List Char} :
    Terminated (l ++ '\n' :: rest) ↔ Terminated rest := by
  have hlast : (l ++ '\n' :: rest).getLast? = some (rest.getLast?.getD '\n') := by
    rw [List.getLast?_append, List.getLast?_cons, Option.some_or]
  simp only [Terminated, hlast]
  cases rest.getLast? <;> simp

/-- Such a text is made up of lines. -/
theorem induction {motive : List Char → Prop} (h : Terminated cs) (nil : motive [])
    (line : ∀ l rest, '\n' ∉ l → motive rest → motive (l ++ '\n' :: rest)) : motive cs := by
  induction hlength : cs.length using Nat.strongRecOn generalizing cs with
  | ind n ih =>
    by_cases hmem : '\n' ∈ cs
    · obtain ⟨l, rest, rfl, hl⟩ := List.eq_append_cons_of_mem hmem
      have hshorter : rest.length < n := by
        rw [← hlength, List.length_append, List.length_cons]
        omega
      exact line l rest hl (ih rest.length hshorter (append_feed_iff.1 h) rfl)
    · have hempty : cs = [] := by
        rw [← List.getLast?_eq_none_iff, Option.eq_none_iff_forall_ne_some]
        exact fun c hc => hmem (h c hc ▸ List.mem_of_getLast? hc)
      exact hempty ▸ nil

/-- The text is cut where such a beginning of it ends. -/
theorem segments_append (h : Terminated cs) (rest : List Char) :
    segments (cs ++ rest) = segments cs ++ segments rest := by
  refine h.induction (motive := fun cs => segments (cs ++ rest) = segments cs ++ segments rest) rfl
    fun l above hl ih => ?_
  rw [List.append_assoc, List.cons_append, Text.segments_append hl, Text.segments_append hl, ih,
    List.cons_append]

/-- There is a segment for each line feed. -/
theorem length_segments (h : Terminated cs) : (segments cs).length = cs.count '\n' := by
  refine h.induction (motive := fun cs => (segments cs).length = cs.count '\n') rfl
    fun l above hl ih => ?_
  rw [Text.segments_append hl, List.length_cons, ih, List.count_append, List.count_cons_self,
    List.count_eq_zero_of_not_mem hl, Nat.zero_add]

end Terminated

/-- A line feed ends a segment. -/
theorem feed_not_mem_dropLast {s cs : List Char} (h : s ∈ segments cs) : '\n' ∉ s.dropLast := by
  induction cs generalizing s with
  | nil => cases h
  | cons c cs ih =>
    rw [segments] at h
    split at h
    · rcases List.mem_cons.1 h with rfl | h
      · exact List.not_mem_nil
      · exact ih h
    · rename_i hc
      rcases hs : segments cs with _ | ⟨first, others⟩ <;> rw [hs] at h ih
      · rw [List.mem_singleton.1 h]
        exact List.not_mem_nil
      · rcases List.mem_cons.1 h with rfl | h
        · have hfirst := ih List.mem_cons_self
          by_cases hne : first = []
          · rw [hne]
            exact List.not_mem_nil
          · rw [List.dropLast_cons_of_ne_nil hne, List.mem_cons, not_or]
            exact ⟨fun e => hc e.symm, hfirst⟩
        · exact ih (List.mem_cons_of_mem _ h)

theorem dropTrailing_isPrefix (c : Char) (l : List Char) : dropTrailing c l <+: l := by
  by_cases h : l.getLast? = some c
  · obtain ⟨init, rfl⟩ := List.getLast?_eq_some_iff.1 h
    rw [dropTrailing_append_singleton]
    exact List.prefix_append _ _
  · exact (dropTrailing_of_getLast?_ne h).symm ▸ List.prefix_refl l

/-- No line holds a line feed. -/
theorem feed_not_mem_of_mem_lines {l cs : List Char} (h : l ∈ lines cs) : '\n' ∉ l := by
  obtain ⟨s, hs, rfl⟩ := List.mem_map.1 h
  have hinit := feed_not_mem_dropLast hs
  rcases List.eq_nil_or_concat s with rfl | ⟨init, c, rfl⟩
  · simp
  · rw [List.concat_eq_append, List.dropLast_concat] at hinit
    rw [List.concat_eq_append, List.getLast?_concat]
    split
    · rename_i hc
      rw [Option.some.inj hc, lineContent, dropTrailing_append_singleton]
      exact fun hmem => hinit ((dropTrailing_isPrefix _ _).subset hmem)
    · rename_i hc
      rw [List.mem_append, List.mem_singleton, not_or]
      exact ⟨hinit, fun e => hc (congrArg some e.symm)⟩

/-- The beginning of a text ends before a character of the text or after it. -/
theorem prefix_append_cons {a b cs : List Char} {c : Char} (h : cs <+: a ++ c :: b) :
    cs <+: a ∨ ∃ d, d <+: b ∧ cs = a ++ c :: d := by
  rcases List.prefix_or_prefix_of_prefix h (List.prefix_append a _) with hshort | ⟨more, rfl⟩
  · exact Or.inl hshort
  · rw [List.prefix_append_right_inj] at h
    cases more with
    | nil => exact Or.inl (by simp)
    | cons c' d =>
      obtain ⟨rfl, hd⟩ := List.cons_prefix_cons.1 h
      exact Or.inr ⟨d, hd, rfl⟩

/-- The beginning of a text of lines has some of its lines, and perhaps the beginning of the next
one. -/
theorem lines_of_prefix {ls : List (List Char)}
    (h : ∀ l ∈ ls, '\n' ∉ l ∧ l.getLast? ≠ some '\r') {cs : List Char}
    (hcs : cs <+: ls.flatMap fun l => l ++ ['\n']) :
    ∃ done rest, ls = done ++ rest ∧ (lines cs = done ∨
      ∃ l more cut, rest = l :: more ∧ cut <+: l ∧ lines cs = done ++ [cut]) := by
  induction ls generalizing cs with
  | nil =>
    obtain rfl := List.prefix_nil.1 hcs
    exact ⟨[], [], rfl, Or.inl rfl⟩
  | cons l ls ih =>
    obtain ⟨hfeed, hreturn⟩ := h l List.mem_cons_self
    rw [List.flatMap_cons, List.append_assoc, List.singleton_append] at hcs
    rcases prefix_append_cons hcs with hcut | ⟨more, hmore, rfl⟩
    · by_cases hne : cs = []
      · exact ⟨[], l :: ls, rfl, Or.inl (by rw [hne]; rfl)⟩
      · exact ⟨[], l :: ls, rfl, Or.inr ⟨l, ls, cs, rfl, hcut,
          lines_of_not_mem (fun hc => hfeed (hcut.subset hc)) hne⟩⟩
    · obtain ⟨done, rest, rfl, hlines⟩ := ih (fun l hl => h l (List.mem_cons_of_mem _ hl)) hmore
      refine ⟨l :: done, rest, rfl, ?_⟩
      rw [lines_append hfeed hreturn]
      rcases hlines with he | ⟨l', more', cut, hrest, hcut, he⟩
      · exact Or.inl (by rw [he])
      · exact Or.inr ⟨l', more', cut, hrest, hcut, by rw [he, List.cons_append]⟩

/-! ## Cutting once

A line of a record is cut at its first separator, so a separator that is part of what follows is
kept. -/

/-- Cutting at the first separator. -/
theorem cutAt_append {a : List Char} (h : sep ∉ a) (b : List Char) :
    cutAt sep (a ++ sep :: b) = some (a, b) := by
  induction a with
  | nil => simp [cutAt]
  | cons c a ih =>
    rw [List.mem_cons, not_or] at h
    have hc : ¬c = sep := fun e => h.1 e.symm
    rw [List.cons_append, cutAt, if_neg hc, ih h.2]
    rfl

/-- What is cut in two is the two joined by the separator. -/
theorem cutAt_eq_some {a b cs : List Char} (h : cutAt sep cs = some (a, b)) :
    cs = a ++ sep :: b := by
  induction cs generalizing a with
  | nil => cases h
  | cons c cs ih =>
    rw [cutAt] at h
    split at h
    · rename_i hc
      cases h
      rw [hc, List.nil_append]
    · obtain ⟨⟨a', b'⟩, hcut, he⟩ := Option.map_eq_some_iff.1 h
      cases he
      rw [ih hcut, List.cons_append]

/-- Without a separator there is no cut. -/
theorem cutAt_of_not_mem {a : List Char} (h : sep ∉ a) : cutAt sep a = none := by
  induction a with
  | nil => rfl
  | cons c a ih =>
    rw [List.mem_cons, not_or] at h
    have hc : ¬c = sep := fun e => h.1 e.symm
    rw [cutAt, if_neg hc, ih h.2]
    rfl

end PlatformWiring.Text
