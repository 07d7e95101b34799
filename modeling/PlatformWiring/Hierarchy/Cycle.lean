import PlatformWiring.Hierarchy.Catalog

/-!
# Circles of inheritance

A depth-first search along the supertypes of declared types. The search carries the path
from where it started to where it stands; meeting a type of that path again closes a
circle. A type whose supertypes were searched without meeting a circle is never searched
again.
-/

namespace PlatformWiring

/-- A circle of inheritance: each type derives from the next one, and the last is the first. -/
structure InheritanceCycle where
  /-- the types along the circle -/
  types : List TypeName
  deriving DecidableEq, Repr

namespace InheritanceCycle

/-- The complaint in words. -/
def message (e : InheritanceCycle) : String :=
  "inheritance cycle: " ++ String.intercalate " -> " (e.types.map (·.qualified))

/-- The stable identifier of the complaint. -/
def code : String := "stepwire::registry::inheritance_cycle"

/-- The smallest name of a list that begins with `t`. -/
def smallest (t : TypeName) : List TypeName → TypeName
  | [] => t
  | u :: rest => smallest (if t.le u then t else u) rest

/-- The circle through the listed types, written from its smallest type on. -/
def through : List TypeName → InheritanceCycle
  | [] => ⟨[]⟩
  | t :: rest =>
    let first := smallest t rest
    let before := (t :: rest).takeWhile (· ≠ first)
    let after := (t :: rest).dropWhile (· ≠ first)
    ⟨after ++ before ++ [first]⟩

end InheritanceCycle

namespace Catalog

/-- Searches the types to do, of which `path` leads to each, innermost first. `done` lists types
already known to lead into no circle; the result extends it. -/
def search (c : Catalog) (path done : List TypeName) :
    List TypeName → Except InheritanceCycle (List TypeName)
  | [] => .ok done
  | t :: rest =>
    match _h : c.find? t with
    | none => c.search path done rest
    | some d =>
      if t ∈ done then c.search path done rest
      else if _ht : t ∈ path then .error (.through (path.reverse.dropWhile (· ≠ t)))
      else
        match c.search (t :: path) done d.supertypes with
        | .error e => .error e
        | .ok done' => c.search path (t :: done') rest
termination_by todo => (c.unseen path, todo.length)
decreasing_by
  · exact Prod.Lex.right _ (Nat.lt_succ_self _)
  · exact Prod.Lex.right _ (Nat.lt_succ_self _)
  · exact Prod.Lex.left _ _ (unseen_cons_lt ‹_› ‹_›)
  · exact Prod.Lex.right _ (Nat.lt_succ_self _)

/-- Complains about a circle among the declared types. -/
def checkAcyclic (c : Catalog) : Except InheritanceCycle Unit :=
  (c.search [] [] (c.types.map (·.name))).map fun _ => ()

end Catalog

end PlatformWiring
