/-!
# Cutting text into pieces

Cutting at a separator keeps empty pieces, so that the pieces and the separators between
them make up the text. Lines are the pieces between line feeds, without the empty piece
that a closing line feed would leave and without a carriage return before the line feed.
-/

namespace PlatformWiring.Text

/-- The pieces of a text between the occurrences of `sep`, empty pieces included. -/
def pieces (sep : Char) : List Char → List (List Char)
  | [] => [[]]
  | c :: cs =>
    if c = sep then [] :: pieces sep cs
    else match pieces sep cs with
      | [] => [[c]]
      | p :: ps => (c :: p) :: ps

/-- The pieces put together again with `sep` between them. -/
def unpieces (sep : Char) : List (List Char) → List Char
  | [] => []
  | [p] => p
  | p :: ps => p ++ sep :: unpieces sep ps

/-- There is always a piece. -/
theorem pieces_ne_nil (sep : Char) (cs : List Char) : pieces sep cs ≠ [] := by
  cases cs with
  | nil => simp [pieces]
  | cons c cs =>
    unfold pieces
    split
    · simp
    · split <;> simp

/-- Nothing of the text is lost. -/
theorem unpieces_pieces (sep : Char) (cs : List Char) : unpieces sep (pieces sep cs) = cs := by
  induction cs with
  | nil => rfl
  | cons c cs ih =>
    unfold pieces
    split
    · rename_i h
      subst h
      cases hp : pieces c cs with
      | nil => exact absurd hp (pieces_ne_nil c cs)
      | cons p ps => rw [hp] at ih; simp [unpieces, ih]
    · cases hp : pieces sep cs with
      | nil => exact absurd hp (pieces_ne_nil sep cs)
      | cons p ps =>
        rw [hp] at ih
        cases ps with
        | nil => simpa [unpieces] using ih
        | cons q qs => simpa [unpieces] using ih

/-- The text without its last character, if that is `c`. -/
def dropTrailing (c : Char) : List Char → List Char
  | [] => []
  | [d] => if d = c then [] else [d]
  | d :: e :: rest => d :: dropTrailing c (e :: rest)

/-- The text up to and after the first `sep`. -/
def cutAt (sep : Char) : List Char → Option (List Char × List Char)
  | [] => none
  | c :: cs =>
    if c = sep then some ([], cs)
    else (cutAt sep cs).map fun (before, after) => (c :: before, after)

/-- The text cut after each line feed; no part is empty. -/
def segments : List Char → List (List Char)
  | [] => []
  | c :: cs =>
    if c = '\n' then [c] :: segments cs
    else match segments cs with
      | [] => [[c]]
      | s :: ss => (c :: s) :: ss

/-- A segment without its line break: a line feed, and a carriage return in front of it. -/
def lineContent (segment : List Char) : List Char :=
  dropTrailing '\r' (dropTrailing '\n' segment)

/-- The segments put together are the text. -/
theorem flatten_segments (cs : List Char) : (segments cs).flatten = cs := by
  induction cs with
  | nil => rfl
  | cons c cs ih =>
    unfold segments
    split
    · simp [ih]
    · cases hs : segments cs with
      | nil => rw [hs] at ih; simpa using ih
      | cons s ss => rw [hs] at ih; simpa using ih

/-- The lines of a text. A carriage return is dropped only in front of a line feed. -/
def lines (cs : List Char) : List (List Char) :=
  (segments cs).map fun s =>
    if s.getLast? = some '\n' then lineContent s else s

end PlatformWiring.Text
