import Mathlib.Data.List.Nodup
import PlatformWiring.Hierarchy.Catalog

/-!
# What a catalog answers

Since no type is declared twice, a declaration is what looking up its name finds, so that the
order of the declarations does not matter to a look-up. Neither does it matter to any other answer,
since the walks along supertypes ask nothing else of the catalog.
-/

namespace PlatformWiring

namespace Catalog

variable {c c' : Catalog} {t : TypeName} {d : DeclaredType}

/-! ## Look-ups

A catalog keeps its declarations in a list, and `find?` takes the first one of a name. Since names
are not repeated, the first one is the only one, so `find?` can be read as membership. Lemmas about
catalogs say `c.find? t = some d` throughout, and this is where they meet the list. -/

/-- Looking up a type finds exactly the declaration of that name, wherever it stands. -/
theorem find?_eq_some_iff : c.find? t = some d ↔ d ∈ c.types ∧ d.name = t := by
  constructor
  · exact fun h => ⟨mem_of_find? h, name_of_find? h⟩
  · rintro ⟨hd, rfl⟩
    rcases hf : c.find? d.name with _ | d'
    · simpa using List.find?_eq_none.1 hf d hd
    · rw [List.inj_on_of_nodup_map c.nodup_names (mem_of_find? hf) hd (name_of_find? hf)]

/-- The order of the declarations does not matter to a look-up. -/
theorem find?_eq_of_perm (h : c.types.Perm c'.types) : c.find? = c'.find? := by
  funext t
  refine Option.ext fun d => ?_
  simp only [find?_eq_some_iff, h.mem_iff]

/-! ## Walks along supertypes

The walks are defined with proofs that they end: each one keeps what it found about a type for the
measure. The equations below are without these proofs, and they are what everything else unfolds. By
induction along them, two catalogs with the same look-ups have the same walks. -/

/-- What a chain is at a type: nothing at a seen or an undeclared one, and otherwise the declared
type with the chain of its superclass, which has seen one type more. -/
theorem chain_eq (c : Catalog) (seen : List TypeName) (t : TypeName) :
    c.chain seen t =
      if t ∈ seen then []
      else match c.find? t with
        | none => []
        | some d => d :: match d.superclass with
          | none => []
          | some s => c.chain (t :: seen) s := by
  rw [chain]
  split
  · rfl
  · split
    · rename_i h
      simp [h]
    · rename_i d h
      cases hs : d.superclass <;> simp [h, hs]

/-- What a walk does with the front of its queue: it skips a seen or an undeclared type, and
otherwise lists it and puts its supertypes at the end of the queue. -/
theorem spread_cons (c : Catalog) (seen : List TypeName) (t : TypeName) (queue : List TypeName) :
    c.spread seen (t :: queue) =
      if t ∈ seen then c.spread seen queue
      else match c.find? t with
        | none => c.spread seen queue
        | some d => d :: c.spread (t :: seen) (queue ++ d.supertypes) := by
  rw [spread]
  split
  · rfl
  · split <;> rename_i h <;> simp only [h]

/-- Chains ask a catalog for nothing but look-ups. -/
theorem chain_congr (h : c.find? = c'.find?) (seen : List TypeName) (t : TypeName) :
    c.chain seen t = c'.chain seen t := by
  fun_induction chain c seen t with
  | case1 seen t ht => rw [chain_eq, if_pos ht]
  | case2 seen t ht hnone => rw [chain_eq, if_neg ht, ← h, hnone]
  | case3 seen t ht d hd ih =>
    rw [chain_eq, if_neg ht, ← h, hd]
    cases hs : d.superclass <;> simp only [ih, hs]

/-- Nor does the walk that is level by level. -/
theorem spread_congr (h : c.find? = c'.find?) (seen queue : List TypeName) :
    c.spread seen queue = c'.spread seen queue := by
  fun_induction spread c seen queue with
  | case1 seen => rw [spread]
  | case2 seen t queue ht ih => rw [spread_cons, if_pos ht, ih]
  | case3 seen t queue ht hnone ih => rw [spread_cons, if_neg ht, ← h, hnone, ih]
  | case4 seen t queue ht d hd ih => rw [spread_cons, if_neg ht, ← h, hd, ih]

/-- Catalogs in which every look-up gives the same answer every question alike. -/
theorem lookup_congr (h : c.find? = c'.find?) : c.lookup = c'.lookup := by
  have hhierarchy : c.hierarchy = c'.hierarchy := by
    funext t
    simp only [hierarchy, chain_congr h, spread_congr h]
  have hassignable : c.assignable = c'.assignable := by
    funext a b
    rw [assignable, assignable, spread_congr h]
  have hunimplemented : c.unimplemented = c'.unimplemented := by
    funext t
    rw [unimplemented, unimplemented, hhierarchy]
  rw [lookup, lookup, h, hassignable, hunimplemented]

/-! ## Declaring

Declarations are added one at a time, and the first repeated name stops it. Said for a whole list:
the names of all declarations, old and new, are without repeats, or there is an error. Signatures
are added on their own and leave the declared types alone, which is what a catalog read from a
document is built with. -/

/-- The declarations are added exactly if no type is then declared twice. -/
theorem insertAll_cases (c : Catalog) (ds : List DeclaredType) :
    (((c.types ++ ds).map (·.name)).Nodup ∧ ∃ c', c.insertAll ds = .ok c' ∧
      c'.types = c.types ++ ds ∧ c'.signatures = c.signatures) ∨
    (¬((c.types ++ ds).map (·.name)).Nodup ∧ ∃ e, c.insertAll ds = .error e) := by
  induction ds generalizing c with
  | nil =>
    refine Or.inl ⟨?_, c, rfl, (List.append_nil _).symm, rfl⟩
    rw [List.append_nil]
    exact c.nodup_names
  | cons d ds ih =>
    by_cases hd : d.name ∈ c.types.map (·.name)
    · refine Or.inr ⟨fun hnodup => ?_, ⟨d.name⟩, ?_⟩
      · rw [List.map_append, List.map_cons] at hnodup
        exact (List.nodup_append'.1 hnodup).2.2 hd List.mem_cons_self
      · rw [insertAll, List.foldlM_cons, insert, dif_pos hd]
        rfl
    · -- the declaration is added, and then it stands before the others
      obtain ⟨c₁, hc₁, htypes, hsignatures⟩ : ∃ c₁, c.insert d = .ok c₁ ∧
          c₁.types = c.types ++ [d] ∧ c₁.signatures = c.signatures := by
        rw [insert, dif_neg hd]
        exact ⟨_, rfl, rfl, rfl⟩
      have hstep : c.insertAll (d :: ds) = c₁.insertAll ds := by
        rw [insertAll, List.foldlM_cons, hc₁]
        rfl
      have := ih c₁
      rwa [htypes, hsignatures, ← hstep, List.append_assoc, List.singleton_append] at this

/-- Declaring steps declares no types. -/
theorem types_foldl_declare (c : Catalog) (ss : List StepsSignature) :
    (ss.foldl declare c).types = c.types := by
  induction ss generalizing c with
  | nil => rfl
  | cons s ss ih => rw [List.foldl_cons, ih, declare]

/-- The signatures of declared steps are kept in order, behind those that were there. -/
theorem signatures_foldl_declare (c : Catalog) (ss : List StepsSignature) :
    (ss.foldl declare c).signatures = c.signatures ++ ss := by
  induction ss generalizing c with
  | nil => exact (List.append_nil _).symm
  | cons s ss ih => rw [List.foldl_cons, ih, declare, List.append_assoc, List.singleton_append]

end Catalog

end PlatformWiring
