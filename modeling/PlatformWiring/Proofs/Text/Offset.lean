import PlatformWiring.Proofs.Text.Position

/-!
# Where a position is

A position is in front of the character that it counts to in its line, or behind what the line says
if that has fewer characters, and a position behind the last line is at the end of the text. What a
line says ends before its line break: a line feed, or a carriage return and a line feed. The last
line may end with the text, and then a carriage return at the end of the text is left out of what it
says, as if a line feed followed.

Every number that is added up on the way is at most the number of bytes of the text, so machine
words that can count these are large enough.
-/

namespace PlatformWiring.Text

/-! ## Lines

A line is given by what stands around it: the text is cut into what is above, what the line says,
its line break and what is below. So what is said of positions need not mention how a text is cut
into segments. That both views have the same lines is `exists_in_iff`, and its proof takes one line
off the beginning of the text after the other. -/

/-- What a line says, the line break that ends it and what stands below it. -/
inductive LineEnd (content : List Char) : List Char → List Char → Prop
  /-- a line feed ends the line -/
  | feed (hreturn : content.getLast? ≠ some '\r') (below : List Char) :
    LineEnd content ['\n'] below
  /-- a carriage return and a line feed end it -/
  | returnFeed (below : List Char) : LineEnd content ['\r', '\n'] below
  /-- the end of the text ends it -/
  | text (hne : content ≠ []) (hreturn : content.getLast? ≠ some '\r') : LineEnd content [] []
  /-- a carriage return at the end of the text ends it -/
  | lastReturn : LineEnd content ['\r'] []

namespace LineEnd

variable {content ending below : List Char}

/-- The first segment of a text is its first line with the line break. -/
theorem segments_eq (h : LineEnd content ending below) (hfeed : '\n' ∉ content) :
    segments (content ++ ending ++ below) = (content ++ ending) :: segments below := by
  have hreturned : '\n' ∉ content ++ ['\r'] := by simpa using hfeed
  cases h with
  | feed hreturn below => simpa using segments_append hfeed below
  | returnFeed below => simpa using segments_append hreturned below
  | text hne hreturn => simpa [segments] using segments_of_not_mem hfeed hne
  | lastReturn => simpa [segments] using segments_of_not_mem hreturned (by simp)

/-- Without the line break it is what the line says. -/
theorem lineContent_eq (h : LineEnd content ending below) (hfeed : '\n' ∉ content) :
    lineContent (content ++ ending) = content := by
  have hlast : content.getLast? ≠ some '\n' := fun he => hfeed (List.mem_of_getLast? he)
  cases h with
  | feed hreturn below =>
    rw [lineContent, dropTrailing_append_singleton, dropTrailing_of_getLast?_ne hreturn]
  | returnFeed below =>
    have happend : content ++ ['\r', '\n'] = (content ++ ['\r']) ++ ['\n'] := by simp
    rw [happend, lineContent, dropTrailing_append_singleton, dropTrailing_append_singleton]
  | text hne hreturn =>
    rw [List.append_nil, lineContent, dropTrailing_of_getLast?_ne hlast,
      dropTrailing_of_getLast?_ne hreturn]
  | lastReturn =>
    have hother : (content ++ ['\r']).getLast? ≠ some '\n' := by simp
    rw [lineContent, dropTrailing_of_getLast?_ne hother, dropTrailing_append_singleton]

end LineEnd

/-- A text that is not empty begins with a line. -/
theorem exists_lineEnd {cs : List Char} (h : cs ≠ []) :
    ∃ content ending below, content ++ ending ++ below = cs ∧ '\n' ∉ content ∧
      LineEnd content ending below := by
  by_cases hmem : '\n' ∈ cs
  · obtain ⟨line, below, rfl, hline⟩ := List.eq_append_cons_of_mem hmem
    by_cases hlast : line.getLast? = some '\r'
    · obtain ⟨content, rfl⟩ := List.getLast?_eq_some_iff.1 hlast
      rw [List.mem_append, not_or] at hline
      exact ⟨content, _, below, by simp, hline.1, .returnFeed below⟩
    · exact ⟨line, _, below, by simp, hline, .feed hlast below⟩
  · by_cases hlast : cs.getLast? = some '\r'
    · obtain ⟨content, rfl⟩ := List.getLast?_eq_some_iff.1 hlast
      rw [List.mem_append, not_or] at hmem
      exact ⟨content, _, _, by simp, hmem.1, .lastReturn⟩
    · exact ⟨cs, _, _, by simp, hmem, .text h hlast⟩

/-- A line of a text and what stands around it. -/
structure Line where
  /-- the lines above it -/
  above : List Char
  /-- what it says -/
  content : List Char
  /-- its line break -/
  ending : List Char
  /-- the lines below it -/
  below : List Char

namespace Line

variable {l : Line} {cs : List Char} {n : Nat}

/-- The text has the line, and there are `n` lines above it. -/
structure In (l : Line) (cs : List Char) (n : Nat) : Prop where
  /-- the line and what stands around it are the text -/
  text : l.above ++ (l.content ++ l.ending ++ l.below) = cs
  /-- it begins with the text or behind a line feed -/
  above : Terminated l.above
  /-- there is a line feed for each line above it -/
  count : l.above.count '\n' = n
  /-- it has no line feed inside -/
  feed : '\n' ∉ l.content
  /-- it ends like a line -/
  lineEnd : LineEnd l.content l.ending l.below

/-- The segment of a line stands between the segments above it and those below it. -/
theorem In.segments_eq (h : l.In cs n) :
    segments cs = segments l.above ++ (l.content ++ l.ending) :: segments l.below := by
  rw [← h.text, h.above.segments_append, h.lineEnd.segments_eq h.feed]

/-- The line below the first one is in the rest of the text. -/
theorem In.below_feed {line rest : List Char} (h : l.In rest n) (hline : '\n' ∉ line) :
    In { l with above := line ++ '\n' :: l.above } (line ++ '\n' :: rest) (n + 1) where
  text := by simp [← h.text]
  above := Terminated.append_feed_iff.2 h.above
  count := by simp [List.count_eq_zero_of_not_mem hline, h.count]
  feed := h.feed
  lineEnd := h.lineEnd

/-- A text has the lines that it is cut into. -/
theorem exists_in_iff : (∃ l : Line, l.In cs n) ↔ n < (segments cs).length := by
  constructor
  · rintro ⟨l, h⟩
    rw [h.segments_eq, List.length_append, h.above.length_segments, h.count, List.length_cons]
    omega
  · intro h
    induction n generalizing cs with
    | zero =>
      have hne : cs ≠ [] := by
        rintro rfl
        exact absurd h (Nat.lt_irrefl 0)
      obtain ⟨content, ending, below, htext, hfeed, hend⟩ := exists_lineEnd hne
      exact ⟨⟨[], content, ending, below⟩, htext, (fun c hc => by cases hc), rfl, hfeed, hend⟩
    | succ n ih =>
      by_cases hmem : '\n' ∈ cs
      · obtain ⟨line, rest, rfl, hline⟩ := List.eq_append_cons_of_mem hmem
        rw [segments_append hline, List.length_cons] at h
        obtain ⟨l, hl⟩ := ih (Nat.lt_of_succ_lt_succ h)
        exact ⟨_, hl.below_feed hline⟩
      · -- a text without line feed has one line at most
        by_cases hne : cs = []
        · rw [hne] at h
          cases h
        · rw [segments_of_not_mem hmem hne, List.length_singleton] at h
          omega

end Line

/-! ## Places

What stands before a place is all that is above its line and the beginning of what the line says. A
column behind the line is no different from one at its end. -/

/-- Before a place in a segment stand all segments above it and the beginning of its line. -/
theorem beforePlace_append (ss rest : List (List Char)) (s : List Char) (column : Nat) :
    beforePlace (ss ++ s :: rest) ss.length column =
      ss.flatten ++ (lineContent s).take column := by
  induction ss with
  | nil => rfl
  | cons t ss ih =>
    rw [List.cons_append, List.length_cons, beforePlace, ih, List.flatten_cons, List.append_assoc]

/-- A place behind the last line is behind the text. -/
theorem beforePlace_of_length_le {ss : List (List Char)} {line : Nat} (h : ss.length ≤ line)
    (column : Nat) : beforePlace ss line column = ss.flatten := by
  induction ss generalizing line with
  | nil => rfl
  | cons s ss ih =>
    obtain ⟨line, rfl⟩ := Nat.exists_eq_add_of_lt (Nat.lt_of_lt_of_le (Nat.succ_pos _) h)
    rw [List.length_cons] at h
    rw [Nat.zero_add, beforePlace, ih (by omega), List.flatten_cons]

/-- In one line a later column has more before it. -/
theorem beforePlace_mono (ss : List (List Char)) (line : Nat) {column column' : Nat}
    (h : column ≤ column') : beforePlace ss line column <+: beforePlace ss line column' := by
  induction ss generalizing line with
  | nil => exact List.prefix_refl _
  | cons s ss ih =>
    cases line with
    | zero => exact List.take_prefix_take_left h
    | succ line => exact (List.prefix_append_right_inj s).2 (ih line)

/-! ## Counting in machine words

The bytes before a place can be added up segment by segment in numbers that are bounded, without
looking at a segment twice. No partial sum is more than the bytes of the text, so none is too large
if those are not, and a line or a column can be cut down to the bound before the search begins. -/

/-- The sum, if it is at most `limit`. -/
def addUpTo (limit a b : Nat) : Option Nat := if a + b ≤ limit then some (a + b) else none

/-- The bytes before a place, added up segment by segment to `offset` with sums that are at most
`limit`. A place behind the last segment has `total` bytes before it. -/
def countUpTo (limit total : Nat) : Nat → List (List Char) → Nat → Nat → Option Nat
  | _, [], _, _ => some total
  | offset, s :: _, 0, column => addUpTo limit offset (byteCount ((lineContent s).take column))
  | offset, s :: ss, line + 1, column =>
    (addUpTo limit offset (byteCount s)).bind fun next => countUpTo limit total next ss line column

theorem addUpTo_of_le {limit a b : Nat} (h : a + b ≤ limit) : addUpTo limit a b = some (a + b) :=
  if_pos h

/-- No sum is too large if the whole text has at most `limit` bytes. -/
theorem countUpTo_eq {limit offset : Nat} {ss : List (List Char)}
    (h : offset + byteCount ss.flatten ≤ limit) (line column : Nat) :
    countUpTo limit (offset + byteCount ss.flatten) offset ss line column =
      some (offset + byteCount (beforePlace ss line column)) := by
  induction ss generalizing offset line with
  | nil => rw [countUpTo, beforePlace, List.flatten_nil]
  | cons s ss ih =>
    cases line with
    | zero =>
      have hprefix := byteCount_le_of_isPrefix (beforePlace_isPrefix (s :: ss) 0 column)
      rw [beforePlace] at hprefix ⊢
      rw [countUpTo, addUpTo_of_le (by omega)]
    | succ line =>
      rw [List.flatten_cons, byteCount_append, ← Nat.add_assoc] at h ⊢
      have hsegment : offset + byteCount s ≤ limit := Nat.le_trans (Nat.le_add_right _ _) h
      rw [countUpTo, addUpTo_of_le hsegment, Option.bind_some, ih h, beforePlace, byteCount_append,
        Nat.add_assoc]

/-- Every character takes a byte. -/
theorem length_le_byteCount (cs : List Char) : cs.length ≤ byteCount cs := by
  induction cs with
  | nil => exact Nat.le_refl 0
  | cons c cs ih =>
    have hpos := c.utf8Size_pos
    rw [List.length_cons, byteCount_cons]
    omega

/-- Every segment has a character. -/
theorem length_segments_le (cs : List Char) : (segments cs).length ≤ cs.length := by
  induction cs with
  | nil => exact Nat.le_refl 0
  | cons c cs ih =>
    rw [segments]
    split
    · exact Nat.succ_le_succ ih
    · rcases hs : segments cs with _ | ⟨s, ss⟩
      · simp
      · rw [hs] at ih
        exact Nat.le_succ_of_le ih

/-- A bound above the length of a list does not change what is taken from it. -/
theorem take_min_of_length_le {cs : List Char} {limit : Nat} (h : cs.length ≤ limit)
    (column : Nat) : cs.take (min column limit) = cs.take column := by
  rw [List.take_eq_take_iff]
  omega

/-- Nor does it change a place, as no line is longer than the text. -/
theorem beforePlace_min_column {ss : List (List Char)} {limit : Nat}
    (h : ss.flatten.length ≤ limit) (line column : Nat) :
    beforePlace ss line (min column limit) = beforePlace ss line column := by
  induction ss generalizing line with
  | nil => rfl
  | cons s ss ih =>
    rw [List.flatten_cons, List.length_append] at h
    cases line with
    | zero =>
      have hcontent := (lineContent_isPrefix s).length_le
      exact take_min_of_length_le (by omega) column
    | succ line => rw [beforePlace, ih (by omega), beforePlace]

namespace Position

variable {p : Position} {cs : List Char}

/-- A line or column above a number that is at least the size of the text may as well be that
number. -/
theorem before_min {limit : Nat} (h : byteCount cs ≤ limit) :
    beforePlace (segments cs) (min (p.line - 1) limit) (min (p.column - 1) limit) =
      p.before cs := by
  have hlength : cs.length ≤ limit := Nat.le_trans (length_le_byteCount cs) h
  have hsegments := length_segments_le cs
  rw [beforePlace_min_column (by rwa [flatten_segments]), before]
  rcases Nat.le_total (p.line - 1) limit with hline | hline
  · rw [Nat.min_eq_left hline]
  · rw [Nat.min_eq_right hline, beforePlace_of_length_le (by omega),
      beforePlace_of_length_le (by omega)]

/-- In one line a later column has no fewer bytes before it. -/
theorem byteOffset_mono {line column column' : Nat} (h : column ≤ column') (cs : List Char) :
    byteOffset ⟨line, column⟩ cs ≤ byteOffset ⟨line, column'⟩ cs :=
  byteCount_le_of_isPrefix (beforePlace_mono _ _ (Nat.sub_le_sub_right h 1))

/-- What stands before a position is what stands above its line and the beginning of the line. -/
theorem before_of_in {l : Line} (h : l.In cs (p.line - 1)) :
    p.before cs = l.above ++ l.content.take (p.column - 1) := by
  have hlength : (segments l.above).length = p.line - 1 := h.above.length_segments.trans h.count
  rw [before, h.segments_eq, ← hlength, beforePlace_append, flatten_segments,
    h.lineEnd.lineContent_eq h.feed]

/-- The number of bytes before the place that a position names. A line or column of zero counts as
one. -/
structure Places (p : Position) (cs : List Char) (n : Nat) : Prop where
  /-- the character that it counts to in its line begins there -/
  character : ∀ (l : Line) left c right, l.In cs (p.line - 1) → l.content = left ++ c :: right →
    left.length = p.column - 1 → n = byteCount (l.above ++ left)
  /-- a line with fewer characters says nothing more there -/
  content : ∀ l : Line, l.In cs (p.line - 1) → l.content.length ≤ p.column - 1 →
    n = byteCount (l.above ++ l.content)
  /-- the text ends there if it has no such line -/
  text : (¬∃ l : Line, l.In cs (p.line - 1)) → n = byteCount cs

/-- The bytes before a position are where the position is. A line is known by its number, so the
three cases are about what that line says, or about the whole text if there is no such line. -/
theorem places_byteOffset (p : Position) (cs : List Char) : p.Places cs (p.byteOffset cs) where
  character l left c right h hcontent hleft := by
    rw [byteOffset, before_of_in h, hcontent, ← hleft, List.take_left]
  content l h hlength := by
    rw [byteOffset, before_of_in h, List.take_of_length_le hlength]
  text h := by
    rw [Line.exists_in_iff, Nat.not_lt] at h
    rw [byteOffset, before, beforePlace_of_length_le h, flatten_segments]

/-- **The number of bytes before a position is where its line and column are.** It is at most the
number of bytes of the text, it is between two characters and does not decrease with the column, and
all that is added up and all that lines and columns are compared to fits into words for which the
text is not too long. -/
theorem byteOffset_located (p : Position) (cs : List Char) :
    p.Places cs (p.byteOffset cs) ∧
      p.byteOffset cs ≤ byteCount cs ∧
      IsBoundary cs (p.byteOffset cs) ∧
      (∀ column, p.column ≤ column → p.byteOffset cs ≤ byteOffset ⟨p.line, column⟩ cs) ∧
      ∀ limit, byteCount cs ≤ limit →
        countUpTo limit (byteCount cs) 0 (segments cs) (min (p.line - 1) limit)
          (min (p.column - 1) limit) = some (p.byteOffset cs) := by
  refine ⟨p.places_byteOffset cs, byteCount_le_of_isPrefix (p.before_isPrefix cs),
    p.isBoundary_byteOffset cs, fun column h => byteOffset_mono h cs, fun limit h => ?_⟩
  have hcount : 0 + byteCount (segments cs).flatten = byteCount cs := by
    rw [flatten_segments, Nat.zero_add]
  rw [← hcount, countUpTo_eq (by rwa [hcount]), before_min h, Nat.zero_add, byteOffset]

/-- The last line of a text of two lines, ended by a carriage return. -/
def accentLine : Line := ⟨"one\r\n".toList, "two é".toList, ['\r'], []⟩

/-- The place of the accent, the places behind it in the line and below the line, and what adding up
the bytes before the accent gives in numbers up to the size of the text. -/
theorem accent_located :
    accentLine.In "one\r\ntwo é\r".toList 1 ∧
      byteOffset ⟨2, 5⟩ "one\r\ntwo é\r".toList = 9 ∧
      byteOffset ⟨2, 8⟩ "one\r\ntwo é\r".toList = 11 ∧
      byteOffset ⟨3, 0⟩ "one\r\ntwo é\r".toList = 12 ∧
      byteOffset ⟨2, 5⟩ "one\r\ntwo é\r".toList ≤ byteOffset ⟨2, 8⟩ "one\r\ntwo é\r".toList ∧
      countUpTo 12 12 0 (segments "one\r\ntwo é\r".toList) 1 4 =
        some (byteOffset ⟨2, 5⟩ "one\r\ntwo é\r".toList) := by
  have hline : accentLine.In "one\r\ntwo é\r".toList 1 :=
    ⟨by decide, fun c hc => (Option.some.inj hc).symm, by decide, by decide, .lastReturn⟩
  have hnone : ¬∃ l : Line, l.In "one\r\ntwo é\r".toList 2 := by
    rw [Line.exists_in_iff]
    decide
  obtain ⟨haccent, -, -, hmono, hcount⟩ := byteOffset_located ⟨2, 5⟩ "one\r\ntwo é\r".toList
  refine ⟨hline, ?_, ?_, ?_, hmono 8 (by decide), hcount 12 (by decide)⟩
  · exact haccent.character accentLine "two ".toList 'é' [] hline (by decide) (by decide)
  · exact (byteOffset_located ⟨2, 8⟩ _).1.content accentLine hline (by decide)
  · exact (byteOffset_located ⟨3, 0⟩ _).1.text hnone

/-- A carriage return at the end of the text is left out although no line feed follows it, so a line
that has it does not end where `lines` says. -/
theorem last_return_left_out :
    ¬∀ (p : Position) (cs line : List Char), (lines cs)[p.line - 1]? = some line →
      line.length ≤ p.column - 1 →
      p.byteOffset cs = byteCount ((segments cs).take (p.line - 1)).flatten + byteCount line := by
  intro h
  have hlast := h ⟨1, 4⟩ "x\r".toList "x\r".toList (by decide) (by decide)
  revert hlast
  decide

end Position

end PlatformWiring.Text
