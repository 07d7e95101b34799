import PlatformWiring.Proofs.Text.Split
import PlatformWiring.Text.Position

/-!
# What a position points at

What stands before a position is a beginning of the text, so that a position marks a place between
two characters. The span of a position lies inside the text and has bytes of no other character than
the one that the position points at, which is never a part of a line break. But it has one byte of
it, however many there are: only if the character takes a single byte does the span begin and end
between characters.
-/

namespace PlatformWiring.Text

/-! ## Counting bytes

Bytes are counted character by character. Since no character takes none, a beginning of the text is
known by its number of bytes, and of two beginnings the shorter one has fewer. This is what tells
apart whether a byte is inside a character or between two. -/

@[simp] theorem byteCount_nil : byteCount [] = 0 := rfl

@[simp] theorem byteCount_cons (c : Char) (cs : List Char) :
    byteCount (c :: cs) = c.utf8Size + byteCount cs := rfl

@[simp] theorem byteCount_append (a b : List Char) :
    byteCount (a ++ b) = byteCount a + byteCount b := by
  induction a with
  | nil => simp
  | cons c a ih => rw [List.cons_append, byteCount_cons, byteCount_cons, ih, Nat.add_assoc]

theorem byteCount_concat (a : List Char) (c : Char) :
    byteCount (a ++ [c]) = byteCount a + c.utf8Size := by
  simp

/-- The beginning of a text has no more bytes than the text. -/
theorem byteCount_le_of_isPrefix {a b : List Char} (h : a <+: b) : byteCount a ≤ byteCount b := by
  obtain ⟨rest, rfl⟩ := h
  rw [byteCount_append]
  exact Nat.le_add_right _ _

/-- Every character takes a byte, so only the whole of a text has all its bytes. -/
theorem eq_of_prefix_of_byteCount {a b : List Char} (h : a <+: b)
    (hcount : byteCount a = byteCount b) : a = b := by
  obtain ⟨rest, rfl⟩ := h
  cases rest with
  | nil => rw [List.append_nil]
  | cons c rest =>
    have hpos := c.utf8Size_pos
    rw [byteCount_append, byteCount_cons] at hcount
    omega

variable {cs before before' : List Char} {c c' : Char} {n : Nat}

/-- One character at most comes next. -/
theorem eq_of_concat_isPrefix (hc : before ++ [c] <+: cs) (hc' : before ++ [c'] <+: cs) :
    c = c' := by
  have hsame := (List.prefix_of_prefix_length_le hc hc' (by simp)).eq_of_length (by simp)
  simpa using hsame

/-- A place between two characters, or at an end of the text. -/
def IsBoundary (cs : List Char) (n : Nat) : Prop := ∃ before, before <+: cs ∧ byteCount before = n

/-- Such a place lies inside no character. -/
theorem IsBoundary.outside (hn : IsBoundary cs n) (hc : before ++ [c] <+: cs) :
    n ≤ byteCount before ∨ byteCount before + c.utf8Size ≤ n := by
  obtain ⟨upTo, hupTo, rfl⟩ := hn
  rcases List.prefix_or_prefix_of_prefix hupTo hc with h | h
  · rcases List.prefix_concat_iff.1 h with rfl | h
    · exact Or.inr (Nat.le_of_eq (byteCount_concat before c).symm)
    · exact Or.inl (byteCount_le_of_isPrefix h)
  · exact Or.inr (byteCount_concat before c ▸ byteCount_le_of_isPrefix h)

/-- The byte belongs to the character after `before`. -/
def HasByte (before : List Char) (c : Char) (n : Nat) : Prop :=
  byteCount before ≤ n ∧ n < byteCount before + c.utf8Size

/-- A byte belongs to one character. -/
theorem HasByte.unique (h : HasByte before c n) (h' : HasByte before' c' n)
    (hc : before ++ [c] <+: cs) (hc' : before' ++ [c'] <+: cs) : before = before' ∧ c = c' := by
  have hbefore : before <+: cs := (List.prefix_append before [c]).trans hc
  have hbefore' : before' <+: cs := (List.prefix_append before' [c']).trans hc'
  have hcount : byteCount before = byteCount before' := by
    obtain ⟨hlow, hhigh⟩ := h
    obtain ⟨hlow', hhigh'⟩ := h'
    -- neither of the characters begins inside the other one
    have h₁ := IsBoundary.outside ⟨before, hbefore, rfl⟩ hc'
    have h₂ := IsBoundary.outside ⟨before', hbefore', rfl⟩ hc
    omega
  obtain rfl : before = before' := by
    rcases List.prefix_or_prefix_of_prefix hbefore hbefore' with h | h
    · exact eq_of_prefix_of_byteCount h hcount
    · exact (eq_of_prefix_of_byteCount h hcount.symm).symm
  exact ⟨rfl, eq_of_concat_isPrefix hc hc'⟩

/-! ## Spans

A span counts bytes, while a reader sees characters. It touches a character if it has a byte of it.
That it touches one at most does not mean that it has all of its bytes, so `Narrow` and `Valid` are
two notions. -/

namespace Span

/-- The character after `before` has a byte in the span. -/
def Touches (s : Span) (before : List Char) (c : Char) : Prop :=
  ∃ n, s.offset ≤ n ∧ n < s.offset + s.length ∧ HasByte before c n

/-- A span of a text that touches one character at most, and no line break. -/
structure Narrow (s : Span) (cs : List Char) : Prop where
  /-- it lies inside the text -/
  inside : s.offset + s.length ≤ byteCount cs
  /-- it touches no two characters -/
  single : ∀ before c before' c', before ++ [c] <+: cs → before' ++ [c'] <+: cs →
    s.Touches before c → s.Touches before' c' → before = before'
  /-- it touches no line break -/
  unbroken : ∀ before c, before ++ [c] <+: cs → s.Touches before c →
    Position.isBreak c = false

/-- A narrow span that begins and ends between characters. -/
structure Valid (s : Span) (cs : List Char) : Prop extends s.Narrow cs where
  /-- it begins between characters -/
  begins : IsBoundary cs s.offset
  /-- it ends between characters -/
  ends : IsBoundary cs (s.offset + s.length)

theorem not_touches_of_length {s : Span} (h : s.length = 0) : ¬s.Touches before c := by
  rintro ⟨n, hlow, hhigh, -⟩
  omega

/-- A span of one byte touches the character that has the byte. -/
theorem touches_iff_of_length {s : Span} (h : s.length = 1) (hbyte : HasByte before c s.offset)
    (hc : before ++ [c] <+: cs) (hc' : before' ++ [c'] <+: cs) :
    s.Touches before' c' ↔ before' = before ∧ c' = c := by
  constructor
  · rintro ⟨n, hlow, hhigh, hn⟩
    obtain rfl : n = s.offset := by omega
    exact hn.unique hbyte hc' hc
  · rintro ⟨rfl, rfl⟩
    exact ⟨s.offset, Nat.le_refl _, by omega, hbyte⟩

end Span

/-! ## Positions

The span of a position is looked for in three steps: the character that comes next, or else the one
before, or else nothing. A line break counts as neither. In the first two cases the span is one byte
long, and it is the first byte of a character or the last one. -/

theorem lineContent_isPrefix (segment : List Char) : lineContent segment <+: segment :=
  (dropTrailing_isPrefix _ _).trans (dropTrailing_isPrefix _ _)

/-- What stands before a place is a beginning of the text. -/
theorem beforePlace_isPrefix (ss : List (List Char)) (line column : Nat) :
    beforePlace ss line column <+: ss.flatten := by
  induction ss generalizing line with
  | nil => exact List.nil_prefix
  | cons s ss ih =>
    rw [List.flatten_cons]
    cases line with
    | zero =>
      exact ((List.take_prefix _ _).trans (lineContent_isPrefix s)).trans (List.prefix_append _ _)
    | succ line => exact (List.prefix_append_right_inj s).2 (ih line)

namespace Position

/-- What stands before a position is a beginning of the text. -/
theorem before_isPrefix (p : Position) (cs : List Char) : p.before cs <+: cs := by
  have h := beforePlace_isPrefix (segments cs) (p.line - 1) (p.column - 1)
  rwa [flatten_segments] at h

/-- A position is between two characters. -/
theorem isBoundary_byteOffset (p : Position) (cs : List Char) : IsBoundary cs (p.byteOffset cs) :=
  ⟨p.before cs, p.before_isPrefix cs, rfl⟩

/-- The position points at the character after `before`, which belongs to no line break: it is the
next one, or the one before the position if a line break or the end of the text comes next. -/
def PointsAt (p : Position) (cs before : List Char) (c : Char) : Prop :=
  before ++ [c] <+: cs ∧ isBreak c = false ∧
    (before = p.before cs ∨
      before ++ [c] = p.before cs ∧ ∀ d, p.before cs ++ [d] <+: cs → isBreak d = true)

/-- A position points at one character at most. -/
theorem PointsAt.unique {p : Position} (h : p.PointsAt cs before c)
    (h' : p.PointsAt cs before' c') : before = before' ∧ c = c' := by
  obtain ⟨hc, hbreak, hplace⟩ := h
  obtain ⟨hc', hbreak', hplace'⟩ := h'
  rcases hplace with hahead | ⟨hback, hstop⟩ <;> rcases hplace' with hahead' | ⟨hback', hstop'⟩
  · rw [hahead] at hc ⊢
    rw [hahead'] at hc' ⊢
    exact ⟨rfl, eq_of_concat_isPrefix hc hc'⟩
  · simp [hstop' c (hahead ▸ hc)] at hbreak
  · simp [hstop c' (hahead' ▸ hc')] at hbreak'
  · obtain ⟨rfl, hlast⟩ := List.append_inj' (hback.trans hback'.symm) rfl
    exact ⟨rfl, by simpa using hlast⟩

/-- The test for a character that is there and is no line break. -/
theorem pointsTo_iff {next : Option Char} :
    (next.map fun c => !isBreak c).getD false = true ↔ ∃ c, next = some c ∧ isBreak c = false := by
  cases next <;> simp

/-- The span of a position has a byte of the character that the position points at, or none if it
points at nothing. -/
theorem span_cases (p : Position) (cs : List Char) :
    (∃ before c, p.PointsAt cs before c ∧ (p.span cs).length = 1 ∧
      HasByte before c (p.span cs).offset) ∨
    (∀ before c, ¬p.PointsAt cs before c) ∧ p.span cs = ⟨p.byteOffset cs, 0⟩ := by
  obtain ⟨after, hcs⟩ := p.before_isPrefix cs
  have hdrop : cs.drop (p.before cs).length = after := by
    conv => lhs; arg 2; rw [← hcs]
    exact List.drop_left
  have hnext : ∀ {d}, p.before cs ++ [d] <+: cs ↔ after.head? = some d := by
    intro d
    conv => lhs; arg 2; rw [← hcs]
    rw [List.prefix_append_right_inj, List.head?_eq_some_iff]
    exact ⟨fun ⟨rest, h⟩ => ⟨rest, h.symm⟩, fun ⟨rest, h⟩ => ⟨rest, h.symm⟩⟩
  simp only [span, byteOffset, hdrop]
  by_cases hahead : (after.head?.map fun c => !isBreak c).getD false = true
  · obtain ⟨c, hc, hbreak⟩ := pointsTo_iff.1 hahead
    refine Or.inl ⟨p.before cs, c, ⟨hnext.2 hc, hbreak, Or.inl rfl⟩, ?_⟩
    rw [if_pos hahead]
    exact ⟨rfl, Nat.le_refl _, Nat.lt_add_of_pos_right c.utf8Size_pos⟩
  rw [if_neg hahead]
  have hstop : ∀ d, p.before cs ++ [d] <+: cs → isBreak d = true := fun d hd =>
    (Bool.eq_false_or_eq_true _).resolve_right fun hbreak =>
      hahead (pointsTo_iff.2 ⟨d, hnext.1 hd, hbreak⟩)
  by_cases hback : ((p.before cs).getLast?.map fun c => !isBreak c).getD false = true
  · obtain ⟨c, hc, hbreak⟩ := pointsTo_iff.1 hback
    obtain ⟨init, hinit⟩ := List.getLast?_eq_some_iff.1 hc
    have hinit' : init ++ [c] <+: cs := hinit ▸ p.before_isPrefix cs
    have hpos := c.utf8Size_pos
    refine Or.inl ⟨init, c, ⟨hinit', hbreak, Or.inr ⟨hinit.symm, hstop⟩⟩, ?_⟩
    rw [if_pos hback, hinit]
    refine ⟨rfl, ?_⟩
    simp only [HasByte, byteCount_concat]
    omega
  · rw [if_neg hback]
    refine Or.inr ⟨?_, rfl⟩
    rintro before c ⟨hc, hbreak, rfl | ⟨hinit, -⟩⟩
    · exact hahead (pointsTo_iff.2 ⟨c, hnext.1 hc, hbreak⟩)
    · refine hback (pointsTo_iff.2 ⟨c, ?_, hbreak⟩)
      rw [← hinit, List.getLast?_concat]

/-- The span of a position touches the character that the position points at and no other one. -/
theorem touches_span_iff {p : Position} (hc : before ++ [c] <+: cs) :
    (p.span cs).Touches before c ↔ p.PointsAt cs before c := by
  rcases p.span_cases cs with ⟨before₀, c₀, hpoints, hlength, hbyte⟩ | ⟨hnone, hspan⟩
  · rw [Span.touches_iff_of_length hlength hbyte hpoints.1 hc]
    constructor
    · rintro ⟨rfl, rfl⟩
      exact hpoints
    · exact fun h => h.unique hpoints
  · exact iff_of_false (Span.not_touches_of_length (by rw [hspan])) (hnone before c)

/-- A position has a narrow span: all that it touches is the character the position points at, and
that is one character at most and no line break. -/
theorem narrow_span (p : Position) (cs : List Char) : (p.span cs).Narrow cs where
  inside := by
    rcases p.span_cases cs with ⟨before, c, hpoints, hlength, -, hbyte⟩ | ⟨-, hspan⟩
    · have hcount := byteCount_le_of_isPrefix hpoints.1
      rw [byteCount_concat] at hcount
      omega
    · rw [hspan]
      exact byteCount_le_of_isPrefix (p.before_isPrefix cs)
  single := fun _ _ _ _ hc hc' h h' =>
    (((touches_span_iff hc).1 h).unique ((touches_span_iff hc').1 h')).1
  unbroken := fun _ _ hc h => ((touches_span_iff hc).1 h).2.1

/-- An empty span is where the position is, and a byte ends between characters if it is a
character. -/
theorem valid_span_iff (p : Position) (cs : List Char) :
    (p.span cs).Valid cs ↔ ∀ before c, p.PointsAt cs before c → c.utf8Size = 1 := by
  rcases p.span_cases cs with ⟨before, c, hpoints, hlength, hbyte⟩ | ⟨hnone, hspan⟩
  · obtain ⟨hlow, hhigh⟩ := hbyte
    constructor
    · intro h before' c' hpoints'
      obtain ⟨rfl, rfl⟩ := hpoints'.unique hpoints
      -- the character begins where the span does and ends where the span does
      have hbegins := h.begins.outside hpoints.1
      have hends := h.ends.outside hpoints.1
      omega
    · intro h
      have hsize := h before c hpoints
      refine ⟨p.narrow_span cs, ⟨before, ?_, ?_⟩, ⟨before ++ [c], hpoints.1, ?_⟩⟩
      · exact (List.prefix_append _ _).trans hpoints.1
      · omega
      · rw [byteCount_concat]
        omega
  · refine iff_of_true ⟨p.narrow_span cs, ?_, ?_⟩ fun before c h => absurd h (hnone before c)
    · rw [hspan]
      exact p.isBoundary_byteOffset cs
    · rw [hspan]
      exact p.isBoundary_byteOffset cs

/-- **The span of a position touches one character at most, and no line break. It begins and ends
between characters exactly if the character that the position points at takes a single byte.** -/
theorem narrow_and_valid_span_iff (p : Position) (cs : List Char) :
    (p.span cs).Narrow cs ∧
      ((p.span cs).Valid cs ↔ ∀ before c, p.PointsAt cs before c → c.utf8Size = 1) :=
  ⟨p.narrow_span cs, p.valid_span_iff cs⟩

/-- The span of a value that is a letter with an accent ends inside the letter, which takes two
bytes. -/
theorem accent_span_not_valid :
    ¬(span ⟨2, 12⟩ "wire_version: \"1.0.0\"\nplatforms: é\n".toList).Valid
      "wire_version: \"1.0.0\"\nplatforms: é\n".toList := by
  intro h
  have hletter : "wire_version: \"1.0.0\"\nplatforms: ".toList ++ ['é'] <+:
      "wire_version: \"1.0.0\"\nplatforms: é\n".toList := by decide
  have houtside := h.ends.outside hletter
  revert houtside
  decide

end Position

end PlatformWiring.Text
