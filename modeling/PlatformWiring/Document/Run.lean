/-!
# Runs of items

Documents are read from front to back, so the items of a list are at hand before it is
known whether the text after them can be read at all. A run is a list whose rest may be
replaced by a fault; whoever takes the items meets the fault only after them.
-/

namespace PlatformWiring

universe u v w

/-- Items one after the other, of which a fault may replace the rest. -/
inductive Run (ε : Type u) (α : Type v) where
  /-- there are no more items -/
  | done
  /-- the rest cannot be had -/
  | broken (fault : ε)
  /-- an item and the rest -/
  | next (item : α) (rest : Run ε α)
  deriving Inhabited, Repr

namespace Run

variable {ε : Type u} {α : Type v} {β : Type w}

/-- The items of a list, and then the fault, if there is one. -/
def ofList (fault? : Option ε) : List α → Run ε α
  | [] => match fault? with
    | none => .done
    | some fault => .broken fault
  | a :: as => .next a (ofList fault? as)

/-- Reads every item; the first fault, of an item or of the run, is the result. -/
def readAll (read : α → Except ε β) : Run ε α → Except ε (List β)
  | .done => .ok []
  | .broken fault => .error fault
  | .next a rest =>
    match read a with
    | .error fault => .error fault
    | .ok b => (readAll read rest).map (b :: ·)

end Run

end PlatformWiring
