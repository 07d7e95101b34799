import Mathlib.Data.List.Perm.Basic
import PlatformWiring.Proofs.Source.Scope

/-!
# Imports and written names

The text of a unit writes the types that the unit mentions, each as often as it is mentioned. Since
the names were read, a simple name holds no full stop and a qualified name does, so that no two of
the types look the same in the text. The import lines are in strict order and end in different
simple names, and a type of another package is written by its simple name exactly if one of these
lines is its.

Three parts of the program have to agree for this: the list of mentioned types, which decides about
imports, the imports themselves, and the layout of the text, which has a way of its own through the
unit. All statements here are about the text: the import lines are the pieces that look like one,
and what is written for a type is what its piece is rendered to.
-/

namespace PlatformWiring

/-! ## Written types

The layout goes through the unit once more, and on another way than the list of mentioned types: it
comes to the annotations of a method only where the method is written, and to its result before its
parameters. So the two lists are not equal, but each is a rearrangement of the other. The lemmas
follow the layout from annotations up to whole units. -/

namespace Piece

/-- The types that pieces write, in order. -/
def typesOf (ps : List Piece) : List TypeName := ps.filterMap type?

@[simp] theorem typesOf_nil : typesOf [] = [] := rfl

@[simp] theorem typesOf_text_cons (s : String) (ps : List Piece) :
    typesOf (.text s :: ps) = typesOf ps := rfl

@[simp] theorem typesOf_type_cons (t : TypeName) (ps : List Piece) :
    typesOf (.type t :: ps) = t :: typesOf ps := rfl

@[simp] theorem typesOf_append (ps qs : List Piece) :
    typesOf (ps ++ qs) = typesOf ps ++ typesOf qs :=
  List.filterMap_append

@[simp] theorem typesOf_flatMap {α : Type} (l : List α) (f : α → List Piece) :
    typesOf (l.flatMap f) = l.flatMap fun a => typesOf (f a) :=
  List.filterMap_flatMap

@[simp] theorem typesOf_map_text {α : Type} (l : List α) (f : α → String) :
    typesOf (l.map fun a => .text (f a)) = [] := by
  induction l with
  | nil => rfl
  | cons a l ih => exact ih

/-- The texts between groups write no types. -/
@[simp] theorem typesOf_joined (sep : String) (groups : List (List Piece)) :
    typesOf (joined sep groups) = groups.flatMap typesOf := by
  induction groups with
  | nil => rfl
  | cons ps rest ih =>
    rw [List.flatMap_cons, ← ih]
    cases rest with
    | nil => simp [joined]
    | cons qs rest => exact typesOf_append ps (.text sep :: joined sep (qs :: rest))

end Piece

open Piece (typesOf)

@[simp] theorem Modifier.typesOf_pieces (ms : List Modifier) :
    typesOf (Modifier.pieces ms) = [] :=
  Piece.typesOf_map_text ms _

@[simp] theorem AnnotationMember.typesOf_pieces (m : AnnotationMember) :
    typesOf m.pieces = m.classes := by
  simp [AnnotationMember.pieces, List.flatMap_map]

@[simp] theorem Annotation.typesOf_pieces (a : Annotation) : typesOf a.pieces = a.types := by
  by_cases h : a.members = [] <;> simp [h, Annotation.pieces, Annotation.types, List.flatMap_map]

@[simp] theorem Field.typesOf_pieces (f : Field) : typesOf f.pieces = [f.type] := by
  simp [Field.pieces]

@[simp] theorem Statement.typesOf_pieces (s : Statement) : typesOf s.pieces = s.types := by
  cases s <;> simp [Statement.pieces, Statement.types]

namespace Method

@[simp] theorem typesOf_parameterPieces (m : Method) :
    typesOf m.parameterPieces = m.parameters.map (·.type) := by
  rw [parameterPieces, Piece.typesOf_joined, List.flatMap_map]
  exact List.map_eq_flatMap.symm

@[simp] theorem typesOf_bodyPieces (body : Option (List Statement)) :
    typesOf (bodyPieces body) = (body.getD []).flatMap (·.types) := by
  cases body <;> simp [bodyPieces]

/-- A method writes the types of its annotations and its own, but its result comes before its
parameters. -/
theorem typesOf_pieces_perm (inside : UnitKind) (m : Method) :
    (typesOf (m.pieces inside)).Perm (m.annotations.flatMap (·.types) ++ m.types) := by
  have hpieces : typesOf (m.pieces inside) = m.annotations.flatMap (·.types) ++
      (m.result.toList ++ m.parameters.map (·.type) ++ (m.body.getD []).flatMap (·.types)) := by
    simp [pieces]
  rw [hpieces, Method.types]
  exact (List.perm_append_comm.append_right _).append_left _

end Method

namespace SourceUnit

/-- No type is written in front of the body. -/
theorem typesOf_preamble (u : SourceUnit) (lines : List String) :
    typesOf (u.preamble lines) = [] := by
  by_cases h : lines = [] <;> simp [preamble, h]

/-- All types are written in the body. -/
theorem writtenTypes_eq (u : SourceUnit) : u.writtenTypes = typesOf u.body := by
  change typesOf u.pieces = _
  rw [pieces_eq, Piece.typesOf_append, typesOf_preamble, List.nil_append]

/-- The head writes the types of the annotations, the superclass and the interfaces. -/
theorem typesOf_head (u : SourceUnit) : typesOf u.head =
    u.annotations.flatMap (·.types) ++ u.superclass.toList ++ u.interfaces := by
  by_cases h : u.interfaces = [] <;> simp [head, h, List.flatMap_map]

/-- The blocks write the types of the fields, and then what each method writes. -/
theorem typesOf_blocks (u : SourceUnit) : u.blocks.flatMap typesOf =
    u.fields.map (·.type) ++ u.methods.flatMap fun m => typesOf (m.pieces u.kind) := by
  have hfields : (u.fields.flatMap fun f => typesOf f.pieces) = u.fields.map (·.type) := by
    simp only [Field.typesOf_pieces]
    exact List.map_eq_flatMap.symm
  by_cases h : u.fields = []
  · simp [blocks, h, List.flatMap_map]
  · simp [blocks, h, List.flatMap_map, ← hfields]

/-- The text of a unit writes the types that the unit mentions, each as often. -/
theorem writtenTypes_perm (u : SourceUnit) : u.writtenTypes.Perm u.mentioned := by
  -- only the annotations of methods come later than they are mentioned, and results earlier
  have hmethods : (u.methods.flatMap fun m => typesOf (m.pieces u.kind)).Perm
      (u.methods.flatMap (fun m => m.annotations.flatMap (·.types)) ++
        u.methods.flatMap (·.types)) :=
    (List.Perm.flatMap_left _ fun m _ => m.typesOf_pieces_perm u.kind).trans
      (List.flatMap_append_perm _ _ _).symm
  have hwritten : u.writtenTypes = u.annotations.flatMap (·.types) ++
      (u.superclass.toList ++ u.interfaces ++ u.fields.map (·.type) ++
        u.methods.flatMap fun m => typesOf (m.pieces u.kind)) := by
    simp [writtenTypes_eq, body, typesOf_head, typesOf_blocks]
  have hmentioned : u.mentioned = u.annotations.flatMap (·.types) ++
      (u.methods.flatMap (fun m => m.annotations.flatMap (·.types)) ++
        (u.superclass.toList ++ u.interfaces ++ u.fields.map (·.type) ++
          u.methods.flatMap (·.types))) := by
    simp [mentioned, List.flatMap_assoc]
  rw [hwritten, hmentioned]
  exact ((hmethods.append_left _).trans (List.perm_append_comm_assoc _ _ _)).append_left _

end SourceUnit

/-! ## Types with a simple name

Whether a type is written by its simple name is decided by the first mentioned type of that name, so
it can be asked for with a search through the mentioned types. Everything about how types look then
follows from two facts: a simple name belongs to one type only, and no simple name is a qualified
one. -/

/-- The first type of each simple name is the one that a search for the name finds. -/
theorem Imports.mem_firstOfEach_iff {l : List TypeName} {t : TypeName} :
    t ∈ firstOfEach l ↔ l.find? (·.simple = t.simple) = some t := by
  induction l with
  | nil => simp [firstOfEach]
  | cons a l ih =>
    rw [firstOfEach, List.mem_cons, List.mem_filter, decide_eq_true_iff, List.find?_cons]
    by_cases h : a.simple = t.simple
    · simp [h, eq_comm]
    · have hne : t ≠ a := fun e => h (congrArg TypeName.simple e.symm)
      simp [h, hne, ih, Ne.symm h]

namespace SourceUnit

variable {u : SourceUnit} {t v : TypeName}

/-- The types that get a simple name are the first ones of each name but the unit's own. -/
theorem mem_simple_iff : t ∈ (Imports.ofUnit u).simple ↔
    u.mentioned.find? (·.simple = t.simple) = some t ∧ t.simple ≠ u.name.simple := by
  rw [Imports.ofUnit, Imports.mem_firstOfEach_iff, List.find?_filter]
  by_cases h : t.simple = u.name.simple
  · refine iff_of_false (fun hfind => ?_) fun hright => hright.2 h
    have hfound := List.find?_some hfind
    simp [h] at hfound
  · have hfilter : (fun v : TypeName => decide (decide (v.simple ≠ u.name.simple) = true ∧
        decide (v.simple = t.simple) = true)) = fun v => decide (v.simple = t.simple) := by
      funext v
      by_cases hv : v.simple = t.simple <;> simp [hv, h]
    rw [hfilter]
    exact (and_iff_left h).symm

/-- Types with a simple name are told apart by it. -/
theorem eq_of_mem_simple (ht : t ∈ (Imports.ofUnit u).simple) (hv : v ∈ (Imports.ofUnit u).simple)
    (h : t.simple = v.simple) : t = v := by
  have hfind := (mem_simple_iff.1 ht).1
  rw [h, (mem_simple_iff.1 hv).1] at hfind
  exact (Option.some.inj hfind).symm

/-- A type is written by its simple name, which it has for itself, or by its qualified name. -/
theorem written_cases (u : SourceUnit) (t : TypeName) :
    u.written t = t.simple ∧ (t = u.name ∨ t ∈ (Imports.ofUnit u).simple) ∨
      u.written t = t.qualified := by
  rw [written, Piece.render, Imports.write]
  split
  · rename_i h
    exact Or.inl ⟨rfl, h⟩
  · exact Or.inr rfl

/-- A qualified name holds a full stop, and a simple name that was read does not. -/
theorem simple_ne_qualified (ht : t.IsRead) : t.simple ≠ v.qualified := fun h =>
  ht.parts.2.2 (by rw [h, TypeName.toList_qualified]; simp)

/-- Different types do not look the same. -/
theorem eq_of_written_eq (hread : u.NamesRead) (ht : t ∈ u.name :: u.mentioned)
    (hv : v ∈ u.name :: u.mentioned) (h : u.written t = u.written v) : t = v := by
  have htread := hread.isRead ht
  have hvread := hread.isRead hv
  rcases u.written_cases t with ⟨htw, htplace⟩ | htw <;>
    rcases u.written_cases v with ⟨hvw, hvplace⟩ | hvw <;> rw [htw, hvw] at h
  · rcases htplace with rfl | htplace <;> rcases hvplace with rfl | hvplace
    · rfl
    · exact absurd h.symm (mem_simple hvplace).2
    · exact absurd h (mem_simple htplace).2
    · exact eq_of_mem_simple htplace hvplace h
  · exact absurd h (simple_ne_qualified htread)
  · exact absurd h.symm (simple_ne_qualified hvread)
  · exact htread.eq_of_qualified hvread h

/-! ## Import lines

An import line belongs to one type that has a simple name, and the type can be read back from the
line. So what is said about lines is said about these types first, among which no simple name stands
twice. -/

/-- The import lines are those of the types with a simple name that are of neither of the two
packages. -/
theorem mem_importLines_iff {line : String} : line ∈ u.importLines ↔
    ∃ t ∈ (Imports.ofUnit u).simple, t.package ≠ u.name.package ∧ t.package ≠ impliedPackage ∧
      t.qualified = line := by
  simp only [importLines_eq, Imports.lines, List.mem_mergeSort, List.mem_map, List.mem_filter,
    needsLine_iff, and_assoc]

/-- The import lines stand in strict order. -/
theorem pairwise_lt_importLines (hread : u.NamesRead) : u.importLines.Pairwise (· < ·) := by
  rw [importLines_eq]
  refine Text.pairwise_lt_mergeSort (List.pairwise_map.2 ?_)
  refine ((Imports.pairwise_firstOfEach _).filter _).imp_of_mem fun {t v} ht hv hne he => hne ?_
  have htread := isRead_of_mem_simple hread (List.mem_of_mem_filter ht)
  have hvread := isRead_of_mem_simple hread (List.mem_of_mem_filter hv)
  rw [htread.eq_of_qualified hvread he]

/-- An import line names a mentioned type, which has neither the name nor the package of the unit
and is not one of `java.lang`. -/
theorem exists_of_mem_importLines (hread : u.NamesRead) {line : String}
    (hline : line ∈ u.importLines) :
    ∃ t ∈ u.mentioned, TypeName.read line = .ok t ∧ t.simple ≠ u.name.simple ∧
      t.package ≠ u.name.package ∧ t.package ≠ impliedPackage := by
  obtain ⟨t, ht, hpackage, himplied, rfl⟩ := mem_importLines_iff.1 hline
  obtain ⟨hmem, hne⟩ := mem_simple ht
  exact ⟨t, hmem, (isRead_of_mem_simple hread ht).read_qualified, hne, hpackage, himplied⟩

/-- No two import lines end in one simple name. -/
theorem pairwise_simple_ne_importLines (hread : u.NamesRead) :
    u.importLines.Pairwise fun line line' => ∀ t v, TypeName.read line = .ok t →
      TypeName.read line' = .ok v → t.simple ≠ v.simple := by
  refine (pairwise_lt_importLines hread).imp_of_mem
    fun {line line'} hline hline' hlt t v ht hv he => ?_
  obtain ⟨t', ht', -, -, rfl⟩ := mem_importLines_iff.1 hline
  obtain ⟨v', hv', -, -, rfl⟩ := mem_importLines_iff.1 hline'
  rw [(isRead_of_mem_simple hread ht').read_qualified] at ht
  rw [(isRead_of_mem_simple hread hv').read_qualified] at hv
  cases ht
  cases hv
  rw [eq_of_mem_simple ht' hv' he] at hlt
  exact lt_irrefl _ hlt

/-- A type of another package is written by its simple name exactly if its qualified name is one of
the import lines. -/
theorem written_eq_simple_iff_mem_importLines (hread : u.NamesRead) (ht : t.IsRead)
    (hpackage : t.package ≠ u.name.package) (himplied : t.package ≠ impliedPackage) :
    u.written t = t.simple ↔ t.qualified ∈ u.importLines := by
  rw [written_eq_simple_iff, mem_importLines_iff]
  constructor
  · rintro (rfl | hmem)
    · exact absurd rfl hpackage
    · exact ⟨t, hmem, hpackage, himplied, rfl⟩
  · rintro ⟨v, hmem, -, -, he⟩
    rw [ht.eq_of_qualified (isRead_of_mem_simple hread hmem) he.symm]
    exact Or.inr hmem

/-! ## All together

The statement about a unit has two halves. The first one says what the text is made of: its import
lines and, for each type, what is written for it; and that the types are the mentioned ones. The
second one is about these lines and these names. That different types look different and that the
lines are in strict order is where the names have to be names that can be read. -/

/-- The names in the text of a unit and its import lines match. -/
structure NamesMatch (u : SourceUnit) : Prop where
  /-- the text imports its import lines, and in its body each type is written in its way -/
  text : u.render = u.textWith u.importLines u.written
  /-- all types are written in the body -/
  inBody : u.writtenTypes = typesOf u.body
  /-- these types are those that the unit mentions -/
  mentions : u.writtenTypes.Perm u.mentioned
  /-- the unit's own type is written by its simple name -/
  own : u.written u.name = u.name.simple
  /-- two different types do not look the same -/
  apart : ∀ t ∈ u.name :: u.mentioned, ∀ v ∈ u.name :: u.mentioned,
    u.written t = u.written v → t = v
  /-- a mentioned type is written by its simple name if it is the first one that has it, and the
  name is not the unit's -/
  simple : ∀ t ∈ u.mentioned, t ≠ u.name → (u.written t = t.simple ↔
    u.mentioned.find? (·.simple = t.simple) = some t ∧ t.simple ≠ u.name.simple)
  /-- what is not written by its simple name is written in full -/
  qualified : ∀ t ∈ u.mentioned, u.written t ≠ t.simple → u.written t = t.qualified
  /-- the import lines are in strict order -/
  increasing : u.importLines.Pairwise (· < ·)
  /-- no two of them end in one simple name -/
  differing : u.importLines.Pairwise fun line line' => ∀ t v,
    TypeName.read line = .ok t → TypeName.read line' = .ok v → t.simple ≠ v.simple
  /-- each names a mentioned type that has not the unit's name and is of a package that needs to be
  imported -/
  needed : ∀ line ∈ u.importLines, ∃ t ∈ u.mentioned, TypeName.read line = .ok t ∧
    t.simple ≠ u.name.simple ∧ t.package ≠ u.name.package ∧ t.package ≠ impliedPackage
  /-- a type of such a package is written by its simple name if it is imported -/
  imported : ∀ t : TypeName, t.IsRead → t.package ≠ u.name.package → t.package ≠ impliedPackage →
    (u.written t = t.simple ↔ t.qualified ∈ u.importLines)

/-- **Import lines and written names match** in the text of every unit whose names were read. -/
theorem names_match (u : SourceUnit) (hread : u.NamesRead) : u.NamesMatch where
  text := u.render_eq_textWith
  inBody := u.writtenTypes_eq
  mentions := u.writtenTypes_perm
  own := written_eq_simple_iff.2 (Or.inl rfl)
  apart _ ht _ hv h := eq_of_written_eq hread ht hv h
  simple t _ hne := by rw [written_eq_simple_iff, or_iff_right hne, mem_simple_iff]
  qualified t _ hne := (u.written_cases t).resolve_left fun h => hne h.1
  increasing := pairwise_lt_importLines hread
  differing := pairwise_simple_ne_importLines hread
  needed _ hline := exists_of_mem_importLines hread hline
  imported _ ht hpackage himplied :=
    written_eq_simple_iff_mem_importLines hread ht hpackage himplied

/-- The actions module of two types with one simple name imports the first and writes the second in
full. -/
theorem standard_searches_match :
    (Layout.standard.actionsUnit [⟨"one", "Search"⟩, ⟨"two", "Search"⟩]).NamesRead ∧
      (Layout.standard.actionsUnit [⟨"one", "Search"⟩, ⟨"two", "Search"⟩]).NamesMatch ∧
      (Layout.standard.actionsUnit [⟨"one", "Search"⟩, ⟨"two", "Search"⟩]).written
        ⟨"two", "Search"⟩ ≠ "Search" := by
  have hread : (Layout.standard.actionsUnit
      [⟨"one", "Search"⟩, ⟨"two", "Search"⟩]).NamesRead := fun t ht =>
    Or.inl (TypeName.isRead_iff.2 (by revert t; decide))
  refine ⟨hread, names_match _ hread, fun h => ?_⟩
  have hfirst := ((names_match _ hread).simple ⟨"two", "Search"⟩ (by decide) (by decide)).1 h
  revert hfirst
  decide

end SourceUnit

end PlatformWiring
