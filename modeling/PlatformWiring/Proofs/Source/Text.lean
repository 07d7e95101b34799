import Mathlib.Data.List.Basic
import PlatformWiring.Source.Render

/-!
# The text of a unit, part by part

What a reader of a generated file sees is its text, so what is said about imports and names is said
about the text. It has three parts: the package line, the import lines with an empty line behind
them, and the body, in which the types stand between fixed texts.

The import lines are found among the pieces of the text, by what they look like. All of them are in
the second part. The fixed texts of the body begin differently or do not end in a semicolon and a
line feed, whatever the fields, the methods and their parameters are called; this is checked along
the layout, with one lemma for each kind of syntax.
-/

namespace PlatformWiring

namespace Piece

/-- What the piece imports, if it is an import line. -/
def importLine? : Piece → Option String
  | .text s =>
    ((s.toList.dropPrefix? "import ".toList).bind (·.dropSuffix? ";\n".toList)).map String.ofList
  | .type _ => none

/-- The import lines among the pieces, in order. -/
def importLinesOf (ps : List Piece) : List String := ps.filterMap importLine?

/-- The text of a piece where types are spelled in the given way. -/
def spell (spelling : TypeName → String) : Piece → String
  | .text s => s
  | .type t => spelling t

/-! ## Import lines among pieces

A piece of text is an import line if it begins with the keyword, ends in a semicolon and a line
feed, and so names what is between. Most texts of the layout hold a name that the unit chose, so
they are not compared as a whole: how they begin, or how they end, is enough to tell that they are
no import lines. -/

section importLines

variable {s l : String}

/-- A text is an import line exactly if it is written like one. -/
theorem importLine?_text_eq_some_iff :
    importLine? (.text s) = some l ↔ s = "import " ++ l ++ ";\n" := by
  simp only [importLine?, Option.map_eq_some_iff, Option.bind_eq_some_iff,
    List.dropPrefix?_eq_some_iff, List.dropSuffix?_eq_some_iff, beq_iff_eq]
  constructor
  · rintro ⟨name, ⟨rest, ⟨_, hs, rfl⟩, _, rfl, rfl⟩, rfl⟩
    rw [← String.toList_inj, hs]
    simp
  · rintro rfl
    exact ⟨l.toList, ⟨_, ⟨_, by simp, rfl⟩, _, rfl, rfl⟩, String.ofList_toList⟩

/-- What does not begin like the keyword is no import line. -/
theorem importLine?_of_take (h : s.toList.take 2 ≠ ['i', 'm']) : importLine? (.text s) = none := by
  refine Option.eq_none_iff_forall_not_mem.2 fun l hl => h ?_
  rw [importLine?_text_eq_some_iff.1 hl]
  simp

/-- Nor is what does not end in a line feed. -/
theorem importLine?_of_getLast? (h : s.toList.getLast? ≠ some '\n') :
    importLine? (.text s) = none := by
  refine Option.eq_none_iff_forall_not_mem.2 fun l hl => h ?_
  rw [importLine?_text_eq_some_iff.1 hl, String.toList_append, List.getLast?_append]
  rfl

@[simp] theorem importLinesOf_nil : importLinesOf [] = [] := rfl

@[simp] theorem importLinesOf_type_cons (t : TypeName) (ps : List Piece) :
    importLinesOf (.type t :: ps) = importLinesOf ps := rfl

/-- A text that is no import line adds none. -/
theorem importLinesOf_text_cons (h : importLine? (.text s) = none) (ps : List Piece) :
    importLinesOf (.text s :: ps) = importLinesOf ps :=
  List.filterMap_cons_none h

@[simp] theorem importLinesOf_append (ps qs : List Piece) :
    importLinesOf (ps ++ qs) = importLinesOf ps ++ importLinesOf qs :=
  List.filterMap_append

@[simp] theorem importLinesOf_flatMap {α : Type} (l : List α) (f : α → List Piece) :
    importLinesOf (l.flatMap f) = l.flatMap fun a => importLinesOf (f a) :=
  List.filterMap_flatMap

/-- The texts between groups add none if the text is no import line. -/
theorem importLinesOf_joined (h : importLine? (.text s) = none) (groups : List (List Piece)) :
    importLinesOf (joined s groups) = groups.flatMap importLinesOf := by
  induction groups with
  | nil => rfl
  | cons ps rest ih =>
    rw [List.flatMap_cons, ← ih]
    cases rest with
    | nil => simp [joined]
    | cons qs rest =>
      rw [joined, importLinesOf_append, importLinesOf_text_cons h]
      simp

end importLines

end Piece

open Piece (importLinesOf joined)

/-! ## Syntax without import lines

Whatever a unit declares, no piece of it is an import line. A name in front of fixed text is told by
the end of the text, and a name behind fixed text by its beginning. -/

@[simp] theorem Modifier.importLinesOf_pieces (ms : List Modifier) :
    importLinesOf (Modifier.pieces ms) = [] := by
  refine List.filterMap_eq_nil_iff.2 fun p hp => ?_
  obtain ⟨m, -, rfl⟩ := List.mem_map.1 hp
  cases m <;> decide

@[simp] theorem AnnotationMember.importLinesOf_pieces (m : AnnotationMember) :
    importLinesOf m.pieces = [] := by
  have hname : Piece.importLine? (.text (m.name ++ " = \x7b")) = none :=
    Piece.importLine?_of_getLast? (by simp)
  simp (disch := first | exact hname | decide) [AnnotationMember.pieces,
    Piece.importLinesOf_text_cons, Piece.importLinesOf_joined, List.flatMap_map]

@[simp] theorem Annotation.importLinesOf_pieces (a : Annotation) : importLinesOf a.pieces = [] := by
  by_cases h : a.members = [] <;>
    simp (disch := decide) [h, Annotation.pieces, Piece.importLinesOf_text_cons,
      Piece.importLinesOf_joined, List.flatMap_map]

@[simp] theorem Field.importLinesOf_pieces (f : Field) : importLinesOf f.pieces = [] := by
  have hname : Piece.importLine? (.text (" " ++ f.name ++ ";\n")) = none :=
    Piece.importLine?_of_take (by simp)
  simp (disch := first | exact hname | decide) [Field.pieces, Piece.importLinesOf_text_cons]

@[simp] theorem Statement.importLinesOf_pieces (s : Statement) : importLinesOf s.pieces = [] := by
  cases s with
  | returnNew t arguments =>
    have harguments :
        Piece.importLine? (.text ("(" ++ String.intercalate ", " arguments ++ ");")) = none :=
      Piece.importLine?_of_take (by simp)
    simp (disch := first | exact harguments | decide) [Statement.pieces,
      Piece.importLinesOf_text_cons]
  | returnCall receiver method =>
    exact Piece.importLinesOf_text_cons (Piece.importLine?_of_take (by simp)) []
  | assignField field parameter =>
    exact Piece.importLinesOf_text_cons (Piece.importLine?_of_take (by simp)) []

namespace Method

@[simp] theorem importLinesOf_parameterPieces (m : Method) :
    importLinesOf m.parameterPieces = [] := by
  have hname : ∀ p : Parameter, Piece.importLine? (.text (" " ++ p.name)) = none := fun p =>
    Piece.importLine?_of_take (by simp)
  simp (disch := first | exact hname _ | decide) [parameterPieces, Piece.importLinesOf_joined,
    Piece.importLinesOf_text_cons, List.flatMap_map]

@[simp] theorem importLinesOf_bodyPieces (body : Option (List Statement)) :
    importLinesOf (bodyPieces body) = [] := by
  cases body <;> simp (disch := decide) [bodyPieces, Piece.importLinesOf_text_cons]

@[simp] theorem importLinesOf_pieces (inside : UnitKind) (m : Method) :
    importLinesOf (m.pieces inside) = [] := by
  have hname : Piece.importLine? (.text (m.name ++ "(")) = none :=
    Piece.importLine?_of_getLast? (by simp)
  simp (disch := first | exact hname | decide) [pieces, Piece.importLinesOf_text_cons]

end Method

/-! ## The three parts

The layout of a unit puts its package line and its import lines in front of everything else. What is
in front has the import lines it was given, and what follows has none. So the text imports exactly
what the imports say, and beyond that its types are all that depends on the imports. -/

namespace SourceUnit

/-- What follows the import lines: the head of the type, its blocks and the closing brace. -/
def body (u : SourceUnit) : List Piece := u.head ++ joined "\n" u.blocks ++ [.text "\x7d\n"]

/-- The import lines of the text of the unit, in order. -/
def importLines (u : SourceUnit) : List String := importLinesOf u.pieces

/-- What the text of the unit writes for a type. -/
def written (u : SourceUnit) (t : TypeName) : String := (Piece.type t).render (Imports.ofUnit u)

/-- The text of the unit with the given import lines, where types are spelled in the given way. -/
def textWith (u : SourceUnit) (lines : List String) (spelling : TypeName → String) : String :=
  "package " ++ u.name.package ++ ";\n\n" ++
    (if lines = [] then "" else String.join (lines.map fun l => "import " ++ l ++ ";\n") ++ "\n") ++
    String.join (u.body.map (Piece.spell spelling))

variable {u : SourceUnit}

/-- The text of a unit is what stands in front and its body. -/
theorem pieces_eq (u : SourceUnit) : u.pieces = u.preamble (Imports.ofUnit u).lines ++ u.body := by
  simp [pieces, body]

/-- In front are the import lines that were given and no others: the package line is none. -/
theorem importLinesOf_preamble (u : SourceUnit) (lines : List String) :
    importLinesOf (u.preamble lines) = lines := by
  have hpackage : Piece.importLine? (.text ("package " ++ u.name.package ++ ";\n\n")) = none :=
    Piece.importLine?_of_take (by simp)
  have hlines : importLinesOf (lines.map fun l => .text ("import " ++ l ++ ";\n")) = lines := by
    have hline : (Piece.importLine? ∘ fun l => Piece.text ("import " ++ l ++ ";\n")) = some :=
      funext fun l => Piece.importLine?_text_eq_some_iff.2 rfl
    rw [importLinesOf, List.filterMap_map, hline, List.filterMap_some]
  rw [preamble, List.singleton_append, Piece.importLinesOf_text_cons hpackage]
  split
  · rename_i h
    exact h.symm
  · rw [Piece.importLinesOf_append, hlines, Piece.importLinesOf_text_cons (by decide),
      Piece.importLinesOf_nil, List.append_nil]

theorem importLinesOf_head (u : SourceUnit) : importLinesOf u.head = [] := by
  have hname : Piece.importLine? (.text (u.keyword ++ " " ++ u.name.simple)) = none := by
    refine Piece.importLine?_of_take ?_
    rw [keyword]
    cases u.kind <;> simp
  have hlists : Piece.importLine? (.text (" " ++ u.listsWith ++ " ")) = none :=
    Piece.importLine?_of_take (by simp)
  by_cases h : u.interfaces = [] <;>
    simp (disch := first | exact hname | exact hlists | decide) [h, head,
      Piece.importLinesOf_text_cons, Piece.importLinesOf_joined, List.flatMap_map]

/-- The body has none, in its head or in its blocks. -/
theorem importLinesOf_body (u : SourceUnit) : importLinesOf u.body = [] := by
  have hblocks : u.blocks.flatMap importLinesOf = [] := by
    by_cases h : u.fields = [] <;> simp [blocks, h, List.flatMap_map]
  rw [body, Piece.importLinesOf_append, Piece.importLinesOf_append, importLinesOf_head,
    Piece.importLinesOf_joined (by decide), hblocks, Piece.importLinesOf_text_cons (by decide)]
  rfl

/-- The import lines of the text are the sorted ones of the imports, and nothing else looks like
one. -/
theorem importLines_eq (u : SourceUnit) : u.importLines = (Imports.ofUnit u).lines := by
  rw [importLines, pieces_eq, Piece.importLinesOf_append, importLinesOf_preamble,
    importLinesOf_body, List.append_nil]

/-- The text of the unit is put together from its three parts: it imports its import lines, and in
its body it writes each type in its way. -/
theorem render_eq_textWith (u : SourceUnit) : u.render = u.textWith u.importLines u.written := by
  have hspell : ∀ p : Piece, p.render (Imports.ofUnit u) = p.spell u.written := by
    intro p
    cases p <;> rfl
  have hpreamble : String.join ((u.preamble (Imports.ofUnit u).lines).map (Piece.spell u.written)) =
      "package " ++ u.name.package ++ ";\n\n" ++ (if (Imports.ofUnit u).lines = [] then "" else
        String.join ((Imports.ofUnit u).lines.map fun l => "import " ++ l ++ ";\n") ++ "\n") := by
    by_cases h : (Imports.ofUnit u).lines = [] <;>
      simp [preamble, h, Piece.spell, Function.comp_def, String.join_cons, String.join_append]
  simp only [render, hspell, pieces_eq, List.map_append, String.join_append, hpreamble, textWith,
    importLines_eq]

end SourceUnit

end PlatformWiring
