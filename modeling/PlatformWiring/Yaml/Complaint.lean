import PlatformWiring.Text.Position

/-!
# Complaints about a document

What a reader of documents says when it cannot go on, and where.
-/

namespace PlatformWiring

open Text (Position)

/-- A complaint about a document. -/
structure Complaint where
  /-- what is wrong -/
  reason : String
  /-- where, if the reader knows -/
  position : Option Position
  deriving DecidableEq, Inhabited, Repr

namespace Complaint

/-- A complaint about a place in the document. -/
def atPlace (p : Position) (reason : String) : Complaint := ⟨reason, some p⟩

/-- The reason and the position in words. -/
def text (c : Complaint) : String :=
  match c.position with
  | none => c.reason
  | some p =>
    c.reason ++ " at line " ++ toString p.line ++ ", column " ++ toString p.column

end Complaint

end PlatformWiring
