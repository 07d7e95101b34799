import Mathlib.Data.List.TakeWhile
import PlatformWiring.Proofs.Except
import PlatformWiring.Version

/-!
# Versions written and read back

What is read from a text is a version in normal form: its numbers fit, and no check refuses its
identifiers. Every version in normal form is read back from its text. The reader stops where the
writer went on, since a full stop or a mark ends a number, and a plus sign ends the identifiers.
-/

namespace PlatformWiring.Version

/-- A text is cut where the characters end that belong to its front. -/
theorem takeWhile_dropWhile_append {p : Char → Bool} {front rest : List Char}
    (hfront : ∀ c ∈ front, p c) (hrest : ∀ c ∈ rest.head?, p c = false) :
    (front ++ rest).takeWhile p = front ∧ (front ++ rest).dropWhile p = rest := by
  rw [List.takeWhile_append_of_pos hfront, List.dropWhile_append_of_pos hfront]
  cases rest with
  | nil => simp
  | cons c cs => simp [hrest c rfl]

/-! ## Numbers

A number is read as the digits that its text begins with, and written with the digits of the
library's decimal notation. Both agree digit by digit, by strong induction on the number. The reader
refuses a zero in front, and the writer puts one only before nothing. -/

/-- One more digit at the end multiplies by ten. -/
theorem numberOf_append (ds : List Char) (d : Char) :
    numberOf (ds ++ [d]) = 10 * numberOf ds + (d.toNat - '0'.toNat) := by
  simp [numberOf]

/-- The digits of a number are read as that number. -/
theorem numberOf_toDigits (n : Nat) : numberOf (Nat.toDigits 10 n) = n := by
  induction n using Nat.strongRecOn with
  | ind n ih =>
    by_cases hn : n < 10
    · rw [Nat.toDigits_of_lt_base hn, ← List.nil_append [n.digitChar], numberOf_append,
        Nat.toNat_digitChar_of_lt_ten hn]
      simp [numberOf]
    · have hmod : n % 10 < 10 := Nat.mod_lt n (by omega)
      rw [Nat.toDigits_of_base_le (by omega) (by omega), numberOf_append, ih (n / 10) (by omega),
        Nat.toNat_digitChar_of_lt_ten hmod, show '0'.toNat = 48 from rfl]
      omega

/-- Only the number zero is written with a zero in front. -/
theorem eq_nil_of_toDigits_eq_zero_cons {n : Nat} {ds : List Char}
    (h : Nat.toDigits 10 n = '0' :: ds) : ds = [] := by
  induction n using Nat.strongRecOn generalizing ds with
  | ind n ih =>
    by_cases hn : n < 10
    · rw [Nat.toDigits_of_lt_base hn] at h
      exact (List.cons.inj h).2.symm
    · rw [Nat.toDigits_of_base_le (by omega) (by omega)] at h
      obtain ⟨c, cs, hcs⟩ :=
        List.exists_cons_of_ne_nil (Nat.toDigits_ne_nil (n := n / 10) (b := 10))
      rw [hcs, List.cons_append] at h
      obtain ⟨rfl, -⟩ := List.cons.inj h
      -- the digits in front would be those of zero, but there are ten at least
      have hzero := numberOf_toDigits (n / 10)
      rw [hcs, ih (n / 10) (by omega) hcs] at hzero
      have : n / 10 = 0 := hzero.symm
      omega

/-- A number that fits is read back, if no digit follows it. -/
theorem readNumber_toDigits {part : Part} {n : Nat} {rest : List Char} (hn : n ≤ maxNumber)
    (hrest : ∀ c ∈ rest.head?, c.isDigit = false) :
    readNumber part (Nat.toDigits 10 n ++ rest) = .ok (n, rest) := by
  have hdigits : ∀ c ∈ Nat.toDigits 10 n, c.isDigit = true := fun c =>
    Nat.isDigit_of_mem_toDigits (by omega) (by omega)
  obtain ⟨htake, hdrop⟩ := takeWhile_dropWhile_append hdigits hrest
  have hnumber := numberOf_toDigits n
  obtain ⟨d, ds, hds⟩ := List.exists_cons_of_ne_nil (Nat.toDigits_ne_nil (n := n) (b := 10))
  rw [hds] at htake hdrop hnumber ⊢
  have hzero : ¬(d = '0' ∧ ds ≠ []) := by
    rintro ⟨rfl, hne⟩
    exact hne (eq_nil_of_toDigits_eq_zero_cons hds)
  simp only [readNumber, htake, hdrop, if_neg hzero, hnumber, if_neg (Nat.not_lt.2 hn)]

/-- What is read as a number fits. -/
theorem le_maxNumber_of_readNumber {part : Part} {cs rest : List Char} {n : Nat}
    (h : readNumber part cs = .ok (n, rest)) : n ≤ maxNumber := by
  unfold readNumber at h
  split at h
  · cases h
  · cases h
  · split at h
    · cases h
    · split at h
      · cases h
      · rename_i hle
        cases h
        exact Nat.not_lt.1 hle

/-! ## Identifiers

Identifiers stand behind a mark, a minus sign before those of a pre-release and a plus sign before
those of a build. Without identifiers the mark is left out, and the reader may then not find it at
the beginning of what follows. -/

/-- The characters between the mark of a part and what follows it. -/
def isJoinedChar (c : Char) : Bool := isIdentifierChar c || c == '.'

/-- Identifiers that the part can hold: none at all, or some that nothing is wrong with. -/
def Part.Holds (part : Part) (identifiers : String) : Prop :=
  identifiers = "" ∨
    (∀ c ∈ identifiers.toList, isJoinedChar c) ∧
      ∀ i ∈ Text.pieces '.' identifiers.toList, identifierFault? part i = none

/-- What is read as the identifiers of a part can stand there. -/
theorem holds_of_readIdentifiers {part : Part} {cs rest : List Char} {text : String}
    (h : readIdentifiers part cs = .ok (text, rest)) : part.Holds text := by
  unfold readIdentifiers at h
  simp only at h
  split at h
  · cases h
  · rename_i hfault
    cases h
    refine Or.inr ⟨fun c hc => ?_, fun i hi => ?_⟩
    · rw [String.toList_ofList] at hc
      exact List.mem_takeWhile_imp hc
    · rw [String.toList_ofList] at hi
      exact List.findSome?_eq_none_iff.1 hfault i hi

/-- Identifiers are read back if what follows does not go on with a character of theirs. -/
theorem readIdentifiers_append {part : Part} {text : String} {rest : List Char}
    (h : part.Holds text) (hne : text ≠ "") (hrest : ∀ c ∈ rest.head?, isJoinedChar c = false) :
    readIdentifiers part (text.toList ++ rest) = .ok (text, rest) := by
  obtain ⟨hchars, hfaults⟩ := h.resolve_left hne
  have hjoined : (text.toList ++ rest).takeWhile (fun c => isIdentifierChar c || c == '.') =
      text.toList :=
    (takeWhile_dropWhile_append hchars hrest).1
  have hnone : (Text.pieces '.' text.toList).findSome? (identifierFault? part) = none :=
    List.findSome?_eq_none_iff.2 hfaults
  simp only [readIdentifiers, hjoined, hnone, String.ofList_toList, List.drop_left]

/-- What is read behind a mark, or without one, can stand there. -/
theorem holds_of_readMarked {mark : Char} {part previous last : Part} {cs rest : List Char}
    {text : String} (h : readMarked mark part previous cs = .ok (text, last, rest)) :
    part.Holds text := by
  unfold readMarked at h
  split at h
  · cases h
    exact Or.inl rfl
  · split at h
    · obtain ⟨⟨text', rest'⟩, hread, he⟩ := bind_eq_ok_iff.1 h
      cases he
      exact holds_of_readIdentifiers hread
    · cases h
      exact Or.inl rfl

/-- Identifiers are written behind their mark. -/
theorem toList_writeMarked {mark : Char} {text : String} (hne : text ≠ "") :
    (writeMarked (String.singleton mark) text).toList = mark :: text.toList := by
  rw [writeMarked, if_neg (by simpa using hne)]
  simp

/-- Identifiers are read back behind their mark. If there are none, the text must not go on with
the mark. -/
theorem readMarked_writeMarked (mark : Char) (previous : Part) {part : Part} {text : String}
    (h : part.Holds text) (rest : List Char)
    (hrest : ∀ c ∈ rest.head?, isJoinedChar c = false ∧ c ≠ mark) :
    ∃ last, readMarked mark part previous
      ((writeMarked (String.singleton mark) text).toList ++ rest) = .ok (text, last, rest) := by
  by_cases hne : text = ""
  · refine ⟨previous, ?_⟩
    rw [hne, show writeMarked (String.singleton mark) "" = "" from rfl, String.toList_empty,
      List.nil_append]
    cases rest with
    | nil => rfl
    | cons c cs => rw [readMarked, if_neg (hrest c rfl).2]
  · refine ⟨part, ?_⟩
    rw [toList_writeMarked hne, List.cons_append, readMarked, if_pos rfl,
      readIdentifiers_append h hne fun c hc => (hrest c hc).1]
    rfl

/-! ## Versions

The five parts are written one behind the other and read in the same order. Each lemma on reading
back needs to know how what follows begins: with a full stop, with a mark, or not at all. -/

/-- A version in normal form: the numbers fit, and nothing is wrong with the identifiers. -/
structure WellFormed (v : Version) : Prop where
  /-- the major number fits -/
  major : v.major ≤ maxNumber
  /-- the minor number fits -/
  minor : v.minor ≤ maxNumber
  /-- the patch number fits -/
  patch : v.patch ≤ maxNumber
  /-- nothing is wrong with the identifiers of the pre-release -/
  preRelease : Part.preRelease.Holds v.preRelease
  /-- nothing is wrong with the identifiers of the build -/
  build : Part.build.Holds v.build

/-- What is read from a text is in normal form. -/
theorem wellFormed_of_read {text : String} {v : Version} (h : read text = .ok v) :
    v.WellFormed := by
  unfold read at h
  split at h
  · cases h
  · simp only [bind_eq_ok_iff, Prod.exists] at h
    obtain ⟨major, r₁, hmajor, r₂, -, minor, r₃, hminor, r₄, -, patch, r₅, hpatch,
      preRelease, last, r₆, hpre, build, last', r₇, hbuild, h⟩ := h
    split at h
    · cases h
      exact ⟨le_maxNumber_of_readNumber hmajor, le_maxNumber_of_readNumber hminor,
        le_maxNumber_of_readNumber hpatch, holds_of_readMarked hpre, holds_of_readMarked hbuild⟩
    · cases h

/-- The text of a version, part by part and bracketed from the right, as it is read. -/
theorem toList_write (v : Version) :
    v.write.toList = Nat.toDigits 10 v.major ++ '.' :: (Nat.toDigits 10 v.minor ++
      '.' :: (Nat.toDigits 10 v.patch ++ ((writeMarked "-" v.preRelease).toList ++
        ((writeMarked "+" v.build).toList ++ [])))) := by
  simp [write]

/-- What stands behind a mark begins with it. -/
theorem eq_of_mem_head?_writeMarked {mark c : Char} {text : String}
    (h : c ∈ (writeMarked (String.singleton mark) text).toList.head?) : c = mark := by
  by_cases hne : text = ""
  · rw [hne, show writeMarked (String.singleton mark) "" = "" from rfl] at h
    cases h
  · rw [toList_writeMarked hne] at h
    exact (Option.some.inj h).symm

/-- A version in normal form is read back from its text. -/
theorem read_write {v : Version} (h : v.WellFormed) : read v.write = .ok v := by
  have hne : ¬v.write.isEmpty := fun he => by
    have hempty := toList_write v
    rw [String.isEmpty_iff.1 he] at hempty
    simp at hempty
  have hbuild : ∀ c ∈ ((writeMarked "+" v.build).toList ++ []).head?, c = '+' := fun c hc => by
    rw [List.append_nil] at hc
    exact eq_of_mem_head?_writeMarked hc
  have hmarks : ∀ c ∈ ((writeMarked "-" v.preRelease).toList ++
      ((writeMarked "+" v.build).toList ++ [])).head?, c = '-' ∨ c = '+' := fun c hc => by
    rw [List.head?_append, Option.mem_def, Option.or_eq_some_iff] at hc
    exact hc.imp eq_of_mem_head?_writeMarked fun hc => hbuild c hc.2
  obtain ⟨last, hpre⟩ := readMarked_writeMarked '-' .patch h.preRelease
    ((writeMarked "+" v.build).toList ++ []) fun c hc => by
      rw [hbuild c hc]
      decide
  obtain ⟨last', hpost⟩ := readMarked_writeMarked '+' last h.build [] fun c hc => nomatch hc
  rw [read, if_neg hne, toList_write]
  simp only [bind_eq_ok_iff, Prod.exists]
  refine ⟨_, _, readNumber_toDigits h.major (by rintro c ⟨⟩; rfl), _, rfl,
    _, _, readNumber_toDigits h.minor (by rintro c ⟨⟩; rfl), _, rfl,
    _, _, readNumber_toDigits h.patch fun c hc => ?_, _, _, _, hpre, _, _, _, hpost, rfl⟩
  rcases hmarks c hc with rfl | rfl <;> rfl

/-- The versions in normal form are those that some text is read as. -/
theorem wellFormed_iff {v : Version} : v.WellFormed ↔ ∃ text, read text = .ok v :=
  ⟨fun h => ⟨_, read_write h⟩, fun ⟨_, h⟩ => wellFormed_of_read h⟩

end PlatformWiring.Version
