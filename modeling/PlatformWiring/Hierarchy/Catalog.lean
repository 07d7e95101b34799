import PlatformWiring.Hierarchy.DeclaredType
import PlatformWiring.Requirements

/-!
# The catalog of a project

The declared types of a project, each once, and the constructors of its steps types, both
in the order of declaration. The supertypes of a declared type may be undeclared, and the
declarations may even run in a circle, so the walks below mark the types they have seen:
each step uses up one declared type, which bounds their length.
-/

namespace PlatformWiring

/-- The declared types of a project and the constructors of its steps types. -/
structure Catalog where
  /-- the declared types, in the order of declaration -/
  types : List DeclaredType
  /-- the constructors, in the order of declaration -/
  signatures : List StepsSignature
  /-- no type is declared twice -/
  nodup_names : (types.map (·.name)).Nodup

/-- A second declaration of a type. -/
structure DuplicateType where
  /-- the type -/
  name : TypeName
  deriving DecidableEq, Repr

namespace DuplicateType

/-- The complaint in words. -/
def message (e : DuplicateType) : String :=
  "type [" ++ e.name.qualified ++ "] is declared more than once"

/-- The stable identifier of the complaint. -/
def code : String := "stepwire::registry::duplicate_type"

/-- What to do about it. -/
def help : String := "merge the declarations into a single entry under `types`"

end DuplicateType

namespace Catalog

/-- The catalog that declares nothing. -/
def empty : Catalog := ⟨[], [], List.nodup_nil⟩

instance : Inhabited Catalog := ⟨empty⟩

/-- The declaration of a type. -/
def find? (c : Catalog) (t : TypeName) : Option DeclaredType := c.types.find? (·.name = t)

/-- The type is declared. -/
def declares (c : Catalog) (t : TypeName) : Bool := (c.find? t).isSome

/-- What was found under a name has that name. -/
theorem name_of_find? {c : Catalog} {t : TypeName} {d : DeclaredType} (h : c.find? t = some d) :
    d.name = t := by
  simpa using List.find?_some h

/-- What was found is declared. -/
theorem mem_of_find? {c : Catalog} {t : TypeName} {d : DeclaredType} (h : c.find? t = some d) :
    d ∈ c.types :=
  List.mem_of_find?_eq_some h

/-- Adds a declaration unless its type is declared already. -/
def insert (c : Catalog) (d : DeclaredType) : Except DuplicateType Catalog :=
  if h : d.name ∈ c.types.map (·.name) then .error ⟨d.name⟩
  else .ok
    { types := c.types ++ [d]
      signatures := c.signatures
      nodup_names := by
        rw [List.map_append]
        refine List.nodup_append.2 ⟨c.nodup_names, by simp, ?_⟩
        intro a ha b hb
        simp only [List.map_cons, List.map_nil, List.mem_singleton] at hb
        subst hb
        exact fun e => h (e ▸ ha) }

/-- Adds the declarations one after the other; the first duplicate stops it. -/
def insertAll (c : Catalog) (ds : List DeclaredType) : Except DuplicateType Catalog :=
  ds.foldlM insert c

/-- Adds a constructor. -/
def declare (c : Catalog) (s : StepsSignature) : Catalog :=
  { c with signatures := c.signatures ++ [s] }

/-- The requirement relation of the declared constructors. -/
def requirements (c : Catalog) : Requirements := Requirements.ofSignatures c.signatures

/-! ## Walks along supertypes -/

/-- The number of declared types that are not among `seen`. -/
def unseen (c : Catalog) (seen : List TypeName) : Nat :=
  (c.types.filter fun d => decide (d.name ∉ seen)).length

/-- Marking a declared type as seen leaves fewer unseen. -/
theorem unseen_cons_lt {c : Catalog} {seen : List TypeName} {t : TypeName} {d : DeclaredType}
    (h : c.find? t = some d) (ht : t ∉ seen) : c.unseen (t :: seen) < c.unseen seen := by
  have hn := name_of_find? h
  have hm := mem_of_find? h
  unfold unseen
  generalize c.types = l at hm
  have le : ∀ l : List DeclaredType,
      (l.filter fun d => decide (d.name ∉ t :: seen)).length ≤
        (l.filter fun d => decide (d.name ∉ seen)).length := by
    intro l
    simp only [← List.countP_eq_length_filter]
    refine List.countP_mono_left fun a _ ha => ?_
    simp only [decide_eq_true_eq, List.mem_cons, not_or] at ha ⊢
    exact ha.2
  induction l with
  | nil => simp at hm
  | cons a rest ih =>
    rcases List.mem_cons.1 hm with rfl | hm
    · have h1 : decide (d.name ∉ t :: seen) = false := by simp [hn]
      have h2 : decide (d.name ∉ seen) = true := by simp [hn, ht]
      simp only [List.filter_cons, h1, h2, if_true]
      exact Nat.lt_succ_of_le (le rest)
    · have hi := ih hm
      by_cases h1 : a.name ∉ t :: seen
      · have h2 : a.name ∉ seen := fun hs => h1 (List.mem_cons_of_mem _ hs)
        simp only [List.filter_cons, h1, h2, not_false_eq_true, decide_true, if_true,
          List.length_cons]
        omega
      · rw [List.filter_cons, if_neg (by simpa using h1), List.filter_cons]
        split
        · exact Nat.lt_succ_of_lt hi
        · exact hi

/-- The type and the classes it extends, most derived first, up to a type that is undeclared or
was seen before. -/
def chain (c : Catalog) (seen : List TypeName) (t : TypeName) : List DeclaredType :=
  if _ht : t ∈ seen then []
  else
    match _h : c.find? t with
    | none => []
    | some d => d :: match d.superclass with
      | none => []
      | some s => c.chain (t :: seen) s
termination_by c.unseen seen
decreasing_by exact unseen_cons_lt ‹_› ‹_›

/-- The declared types reachable from the queue, breadth first, without those seen before. -/
def spread (c : Catalog) (seen : List TypeName) : List TypeName → List DeclaredType
  | [] => []
  | t :: queue =>
    if _ht : t ∈ seen then c.spread seen queue
    else
      match _h : c.find? t with
      | none => c.spread seen queue
      | some d => d :: c.spread (t :: seen) (queue ++ d.supertypes)
termination_by queue => (c.unseen seen, queue.length)
decreasing_by
  · exact Prod.Lex.right _ (Nat.lt_succ_self _)
  · exact Prod.Lex.right _ (Nat.lt_succ_self _)
  · exact Prod.Lex.left _ _ (unseen_cons_lt ‹_› ‹_›)

/-- The type, its superclass chain, and after the chain every other declared type it derives
from, beginning with the interfaces of the chain. -/
def hierarchy (c : Catalog) (t : TypeName) : List DeclaredType :=
  let chain := c.chain [] t
  chain ++ c.spread (chain.map (·.name)) (chain.flatMap (·.interfaces))

/-- A value of type `a` can stand where `b` is asked for: both are the same, or `b` is a
supertype of a declared type that `a` is or derives from. -/
def assignable (c : Catalog) (a b : TypeName) : Bool :=
  decide (a = b) || (c.spread [] [a]).any fun d => decide (b ∈ d.supertypes)

/-- The first declaration of each member name decides. -/
def decisive : List Member → List Member
  | [] => []
  | m :: rest => m :: (decisive rest).filter fun m' => decide (m'.name ≠ m.name)

/-- The members that the type leaves without a body, the most derived declaration of each
name deciding. -/
def unimplemented (c : Catalog) (t : TypeName) : List String :=
  ((decisive ((c.hierarchy t).flatMap (·.members))).filter (·.isAbstract)).map (·.name)

/-- The answers that the catalog gives. -/
def lookup (c : Catalog) : TypeLookup where
  find? := c.find?
  assignable := c.assignable
  unimplemented := c.unimplemented

end Catalog

end PlatformWiring
