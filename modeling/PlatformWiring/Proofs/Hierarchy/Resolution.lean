import PlatformWiring.Proofs.Hierarchy.Reach

/-!
# Which declaration of a member decides

The walk through a hierarchy skips what it has seen, and it stops when a chain of superclasses comes
back to itself. Both only keep it from repeating what it said before, so they do not matter to the
question whether the first declaration of a member has a body. Without them the walk is a climb
along superclasses, and after it the levels below the interfaces of the climb: first these
interfaces, then what they derive from, and so on, each level as often as it is led to. The climb
decides if it declares the member at all. If it does not, the lowest level decides that does.
-/

namespace PlatformWiring

/-- The type declares a member of the name. -/
def DeclaredType.Declares (d : DeclaredType) (m : String) : Prop := ∃ x ∈ d.members, x.name = m

/-- Whether the first declaration of a member among the types leaves it without a body. Nothing if
none of them declares it. -/
def decided (m : String) (ds : List DeclaredType) : Option Bool :=
  ((ds.flatMap (·.members)).find? (·.name = m)).map (·.isAbstract)

section decided

variable {m : String} {b : Bool} {d : DeclaredType} {ds es : List DeclaredType}

@[simp] theorem decided_nil (m : String) : decided m [] = none := rfl

/-- The first list that says anything about the member decides. Almost all of this file is computing
with this equation. -/
theorem decided_append (m : String) (ds es : List DeclaredType) :
    decided m (ds ++ es) = (decided m ds).or (decided m es) := by
  rw [decided, List.flatMap_append, List.find?_append, Option.map_or]
  rfl

theorem decided_cons (m : String) (d : DeclaredType) (ds : List DeclaredType) :
    decided m (d :: ds) = (decided m [d]).or (decided m ds) :=
  decided_append m [d] ds

/-- A list says nothing exactly if none of its types does. -/
theorem decided_eq_none_iff : decided m ds = none ↔ ∀ d ∈ ds, decided m [d] = none := by
  induction ds with
  | nil => simp
  | cons d ds ih => rw [decided_cons, Option.or_eq_none_iff, ih, List.forall_mem_cons]

/-- A type says nothing about a member exactly if it does not declare it. -/
theorem decided_singleton_eq_none_iff : decided m [d] = none ↔ ¬d.Declares m := by
  simp [decided, DeclaredType.Declares]

/-- A type that declares a member says something about it, one way or the other. -/
theorem declares_iff : d.Declares m ↔ ∃ b, decided m [d] = some b := by
  rw [← Option.ne_none_iff_exists', ne_eq, decided_singleton_eq_none_iff, not_not]

/-- Nothing is decided if none of the types declares the member. -/
theorem decided_eq_none_iff_not_declares : decided m ds = none ↔ ∀ d ∈ ds, ¬d.Declares m := by
  rw [decided_eq_none_iff]
  exact forall₂_congr fun d _ => decided_singleton_eq_none_iff

/-- The first type that declares the member decides. -/
theorem decided_eq_some_iff : decided m ds = some b ↔
    ∃ before d after, ds = before ++ d :: after ∧ decided m before = none ∧
      decided m [d] = some b := by
  constructor
  · intro h
    induction ds with
    | nil => cases h
    | cons d ds ih =>
      rw [decided_cons] at h
      rcases hd : decided m [d] with _ | b'
      · rw [hd, Option.none_or] at h
        obtain ⟨before, e, after, rfl, hbefore, he⟩ := ih h
        refine ⟨d :: before, e, after, rfl, ?_, he⟩
        rw [decided_cons, hd, Option.none_or, hbefore]
      · rw [hd, Option.some_or] at h
        exact ⟨[], d, ds, rfl, rfl, hd.trans h⟩
  · rintro ⟨before, d, after, rfl, hbefore, hd⟩
    rw [decided_append, hbefore, Option.none_or, decided_cons, hd, Option.some_or]

/-- Fewer types say nothing where more said nothing, in whatever order and however often they stand.
-/
theorem decided_eq_none_of_subset (h : ds ⊆ es) (hes : decided m es = none) :
    decided m ds = none :=
  decided_eq_none_iff.2 fun d hd => decided_eq_none_iff.1 hes d (h hd)

/-- A type without members says nothing. Stubs are such types. -/
theorem decided_of_members_eq_nil (h : d.members = []) : decided m [d] = none := by
  simp [decided, h]

/-- What was decided stays decided if types are added at the end. -/
theorem decided_of_prefix (h : ds <+: es) (hds : decided m ds = some b) :
    decided m es = some b := by
  obtain ⟨rest, rfl⟩ := h
  rw [decided_append, hds, Option.some_or]

/-- Repeating types at the end decides nothing. -/
theorem decided_eq_of_prefix (h : ds <+: es) (hsub : es ⊆ ds) : decided m es = decided m ds := by
  rcases hds : decided m ds with _ | b
  · exact decided_eq_none_of_subset hsub hds
  · exact decided_of_prefix h hds

end decided

/-- The first answer of a sequence. The sequences here are the answers of the levels, lowest level
first. -/
def FirstAnswer (f : Nat → Option Bool) (b : Bool) : Prop :=
  ∃ n, f n = some b ∧ ∀ k < n, f k = none

/-- Two sequences have the same first answer if they agree as long as there was none. -/
theorem firstAnswer_congr {f g : Nat → Option Bool} {b : Bool}
    (h : ∀ n, (∀ k < n, f k = none) → f n = g n) : FirstAnswer f b ↔ FirstAnswer g b := by
  constructor
  · rintro ⟨n, hn, hbefore⟩
    refine ⟨n, h n hbefore ▸ hn, fun k hk => ?_⟩
    rw [← h k fun j hj => hbefore j (Nat.lt_trans hj hk)]
    exact hbefore k hk
  · rintro ⟨n, hn, hbefore⟩
    have hnone : ∀ k < n, f k = none := by
      intro k
      induction k using Nat.strongRecOn with
      | ind k ih =>
        exact fun hk => (h k fun j hj => ih j hj (Nat.lt_trans hj hk)).trans (hbefore k hk)
    exact ⟨n, (h n hnone).trans hn, hnone⟩

namespace Catalog

open Relation

variable {c c' : Catalog} {t u : TypeName} {d : DeclaredType} {m : String} {b : Bool}
  {seen queue ts us : List TypeName}

/-- A type leaves a member without a body if the first declaration in its hierarchy does. This leads
from the list of members that the program computes, with its `decisive` declarations, to a question
about one member at a time. By induction on the list: taking out the later declarations of the name
in front does not touch those of another name. -/
theorem mem_unimplemented_iff :
    m ∈ c.unimplemented t ↔ decided m (c.hierarchy t) = some true := by
  rw [unimplemented, decided]
  induction (c.hierarchy t).flatMap (·.members) with
  | nil => simp [decisive]
  | cons x xs ih =>
    simp only [List.mem_map, List.mem_filter] at ih
    by_cases hx : x.name = m
    · subst hx
      simp only [decisive, List.mem_map, List.mem_filter, List.mem_cons, decide_eq_true_eq,
        List.find?_cons, decide_true, Option.map_some, Option.some.injEq]
      constructor
      · rintro ⟨y, ⟨rfl | ⟨-, hne⟩, habstract⟩, hy⟩
        · exact habstract
        · exact absurd hy hne
      · exact fun habstract => ⟨x, ⟨Or.inl rfl, habstract⟩, rfl⟩
    · simp only [decisive, List.mem_map, List.mem_filter, List.mem_cons, decide_eq_true_eq,
        List.find?_cons, hx, decide_false, ← ih]
      constructor
      · rintro ⟨y, ⟨rfl | ⟨hy, -⟩, habstract⟩, hname⟩
        · exact absurd hname hx
        · exact ⟨y, ⟨hy, habstract⟩, hname⟩
      · rintro ⟨y, ⟨hy, habstract⟩, rfl⟩
        exact ⟨y, ⟨Or.inr ⟨hy, fun he => hx he.symm⟩, habstract⟩, rfl⟩

/-! ## Levels

A walk that is breadth first lists what stands one step below the queue before what stands two steps
below it. A `level` holds what stands a fixed number of steps below a list of types, as often as it
is led to and in the order of the ways there. It skips nothing and marks nothing, so it can be
computed with: the level of two lists is the one level behind the other. -/

/-- What the type derives from directly, if it is declared. -/
def supertypesOf (c : Catalog) (t : TypeName) : List TypeName :=
  ((c.find? t).map (·.supertypes)).getD []

/-- These are the types that it derives from in one step. -/
theorem mem_supertypesOf : u ∈ c.supertypesOf t ↔ c.Derives t u := by
  rw [supertypesOf, Derives]
  cases c.find? t <;> simp

/-- A declared type derives from the supertypes that it lists. -/
theorem supertypesOf_eq (h : c.find? t = some d) : c.supertypesOf t = d.supertypes := by
  rw [supertypesOf, h]
  rfl

theorem supertypesOf_eq_nil (h : c.find? t = none) : c.supertypesOf t = [] := by
  rw [supertypesOf, h]
  rfl

/-- The declared types that stand a number of steps below the listed ones, as often as they are led
to. -/
def level (c : Catalog) : Nat → List TypeName → List DeclaredType
  | 0, ts => ts.filterMap c.find?
  | n + 1, ts => c.level n (ts.flatMap c.supertypesOf)

@[simp] theorem level_nil (c : Catalog) (n : Nat) : c.level n [] = [] := by
  induction n with
  | zero => rfl
  | succ n ih => exact ih

/-- Levels are put together from those of parts of the list, in order. -/
theorem level_append (c : Catalog) (n : Nat) (ts us : List TypeName) :
    c.level n (ts ++ us) = c.level n ts ++ c.level n us := by
  induction n generalizing ts us with
  | zero => exact List.filterMap_append
  | succ n ih => rw [level, List.flatMap_append, ih, ← level, ← level]

theorem level_cons (c : Catalog) (n : Nat) (t : TypeName) (ts : List TypeName) :
    c.level n (t :: ts) = c.level n [t] ++ c.level n ts :=
  c.level_append n [t] ts

/-- One step below a type is what it derives from. -/
theorem level_succ_singleton (c : Catalog) (n : Nat) (t : TypeName) :
    c.level (n + 1) [t] = c.level n (c.supertypesOf t) := by
  rw [level, List.flatMap_singleton]

/-- Nothing stands below an undeclared type, and the type itself does not stand on its level either.
-/
theorem level_of_undeclared (h : c.find? t = none) (n : Nat) : c.level n [t] = [] := by
  cases n with
  | zero => simp [level, h]
  | succ n => rw [level_succ_singleton, supertypesOf_eq_nil h, level_nil]

/-- What stands on a level stands below one of the types. -/
theorem mem_level_iff {n : Nat} : d ∈ c.level n ts ↔ ∃ t ∈ ts, d ∈ c.level n [t] := by
  induction ts with
  | nil => simp
  | cons t ts ih => rw [level_cons, List.mem_append, ih, List.exists_mem_cons_iff]

/-- More types lead to more, whatever their order. -/
theorem level_subset {n : Nat} (h : ts ⊆ us) : c.level n ts ⊆ c.level n us := by
  intro d hd
  obtain ⟨t, ht, hd⟩ := mem_level_iff.1 hd
  exact mem_level_iff.2 ⟨t, h ht, hd⟩

/-- Types added at the end add to a level at the end. So what decided on the level before decides
now. -/
theorem level_isPrefix {n : Nat} (h : ts <+: us) : c.level n ts <+: c.level n us := by
  obtain ⟨rest, rfl⟩ := h
  rw [level_append]
  exact List.prefix_append _ _

/-- On a level the first type decides that leads to a declaration there. -/
theorem decided_level_cons (c : Catalog) (m : String) (n : Nat) (t : TypeName)
    (ts : List TypeName) : decided m (c.level n (t :: ts)) =
      (decided m (c.level n [t])).or (decided m (c.level n ts)) := by
  rw [level_cons, decided_append]

theorem decided_level_append (c : Catalog) (m : String) (n : Nat) (ts us : List TypeName) :
    decided m (c.level n (ts ++ us)) =
      (decided m (c.level n ts)).or (decided m (c.level n us)) := by
  rw [level_append, decided_append]

/-- If a level gives an answer, it is the answer of one of the types that lead to it. -/
theorem exists_of_decided_level_eq_some {n : Nat} (h : decided m (c.level n ts) = some b) :
    ∃ t ∈ ts, decided m (c.level n [t]) = some b := by
  induction ts with
  | nil => simp at h
  | cons t ts ih =>
    rw [decided_level_cons] at h
    rcases ht : decided m (c.level n [t]) with _ | b'
    · rw [ht, Option.none_or] at h
      exact List.exists_mem_cons_of_exists (ih h)
    · rw [ht, Option.some_or] at h
      exact ⟨t, List.mem_cons_self, ht.trans h⟩

theorem exists_of_decided_level_ne_none {n : Nat} (h : decided m (c.level n ts) ≠ none) :
    ∃ t ∈ ts, decided m (c.level n [t]) ≠ none := by
  obtain ⟨b, hb⟩ := Option.ne_none_iff_exists'.1 h
  obtain ⟨t, ht, hb⟩ := exists_of_decided_level_eq_some hb
  exact ⟨t, ht, hb ▸ Option.some_ne_none b⟩

/-! ## The walk and the levels

While the walk goes on, its queue begins with types of one level, and after them come those types of
the next level that were found so far. `front` is the sequence of answers that such a queue gives:
first those of its first part, and then, level for level, those of its second part together with
what the first part leads to. Taking a type from the queue keeps the sequence, or the type answers
and that is the end.

What is left is the skipping. The walk passes over a type that was seen, and the type would have
answered again with everything below it. But whatever a seen type leads to is led to by the queue as
well, and on a way that is shorter by a step at least, since the seen type was taken from the queue
before. So the skipped type never answers first, and passing over it changes nothing. -/

/-- What decides at each level if the queue holds types of this level, and then of the next one. -/
def front (c : Catalog) (m : String) (now next : List TypeName) : Nat → Option Bool
  | 0 => decided m (c.level 0 now)
  | n + 1 => decided m (c.level n (next ++ now.flatMap c.supertypesOf))

/-- When the last type of a level is gone, the next level is at hand. The sequence is the same but
for a first entry that says nothing. -/
theorem firstAnswer_front_nil {next : List TypeName} :
    FirstAnswer (c.front m [] next) b ↔ FirstAnswer (c.front m next []) b := by
  have hlevel : ∀ n, c.front m [] next (n + 1) = c.front m next [] n := by
    intro n
    cases n with
    | zero => rw [front, front, List.flatMap_nil, List.append_nil]
    | succ n => rw [front, front, List.flatMap_nil, List.append_nil, level, List.nil_append]
  constructor
  · rintro ⟨n, hn, hbefore⟩
    cases n with
    | zero => cases hn
    | succ n =>
      refine ⟨n, hlevel n ▸ hn, fun k hk => ?_⟩
      rw [← hlevel]
      exact hbefore _ (Nat.succ_lt_succ hk)
  · rintro ⟨n, hn, hbefore⟩
    refine ⟨n + 1, (hlevel n).trans hn, fun k hk => ?_⟩
    cases k with
    | zero => rfl
    | succ k => exact (hlevel k).trans (hbefore k (Nat.lt_of_succ_lt_succ hk))

/-- A declared type answers first, and it adds what it derives from to the next level. -/
theorem front_cons_zero (h : c.find? t = some d) (m : String) (now next : List TypeName) :
    c.front m (t :: now) next 0 = (decided m [d]).or (c.front m now (next ++ d.supertypes) 0) := by
  rw [front, front, decided_level_cons]
  simp [level, h]

/-- On later levels it makes no difference whether it still waits or was taken, for its supertypes
stand where it would have led. -/
theorem front_cons_succ (h : c.find? t = some d) (now next : List TypeName) (n : Nat) :
    c.front m (t :: now) next (n + 1) = c.front m now (next ++ d.supertypes) (n + 1) := by
  rw [front, front, List.flatMap_cons, supertypesOf_eq h, List.append_assoc]

/-- It is enough to look at queues whose first type is of the level at hand. -/
theorem firstAnswer_front_of_cons {p : Prop}
    (h : ∀ now next, queue = now ++ next → (p ↔ FirstAnswer (c.front m (t :: now) next) b))
    {now next : List TypeName} (hqueue : t :: queue = now ++ next) :
    p ↔ FirstAnswer (c.front m now next) b := by
  rcases List.cons_eq_append_iff.1 hqueue with ⟨rfl, rfl⟩ | ⟨now', rfl, hq⟩
  · rw [firstAnswer_front_nil]
    exact h queue [] (List.append_nil _).symm
  · exact h now' next hq

/-- What a seen type leads to is also led to by the queue, and on a shorter way. By induction on the
number of steps: the first step leads to a seen type again, or to the queue, where the step is
saved. Seen types say nothing about the member themselves, since otherwise the walk would have found
its answer already. -/
theorem exists_level_of_seen (h : c.Covered seen queue)
    (hseen : ∀ t ∈ seen, ∀ d, c.find? t = some d → decided m [d] = none) {n : Nat}
    (ht : t ∈ seen) (hn : decided m (c.level n [t]) ≠ none) :
    ∃ k < n, decided m (c.level k queue) ≠ none := by
  induction n generalizing t with
  | zero =>
    rcases hd : c.find? t with _ | d
    · simp [level_of_undeclared hd] at hn
    · simp [level, hd, hseen t ht d hd] at hn
  | succ n ih =>
    rw [level_succ_singleton] at hn
    obtain ⟨u, hu, hn⟩ := exists_of_decided_level_ne_none hn
    rcases h t ht u (mem_supertypesOf.1 hu) with hseen' | hqueue | hnone
    · obtain ⟨k, hk, hlevel⟩ := ih hseen' hn
      exact ⟨k, Nat.lt_succ_of_lt hk, hlevel⟩
    · refine ⟨n, Nat.lt_succ_self n, fun hq => hn ?_⟩
      exact decided_eq_none_of_subset (level_subset (by simpa using hqueue)) hq
    · rw [level_of_undeclared hnone] at hn
      exact absurd rfl hn

/-- Skipping a seen type changes nothing. On the level at hand the type says nothing. On a later
level, if it leads to an answer, the queue does so on a lower one, or on the same one with types
that stand before. -/
theorem firstAnswer_front_skip {now next : List TypeName} (h : c.Covered seen (now ++ next))
    (hseen : ∀ t ∈ seen, ∀ d, c.find? t = some d → decided m [d] = none) (ht : t ∈ seen) :
    FirstAnswer (c.front m (t :: now) next) b ↔ FirstAnswer (c.front m now next) b := by
  refine firstAnswer_congr fun n hbefore => ?_
  cases n with
  | zero =>
    have hzero : decided m (c.level 0 [t]) = none := by
      by_contra hne
      obtain ⟨k, hk, -⟩ := exists_level_of_seen h hseen ht hne
      exact Nat.not_lt_zero k hk
    rw [front, front, decided_level_cons, hzero, Option.none_or]
  | succ n =>
    rw [front, front, List.flatMap_cons, decided_level_append, decided_level_append,
      decided_level_append]
    rcases hown : decided m (c.level n (c.supertypesOf t)) with _ | b'
    · rw [Option.none_or]
    · -- the queue answers too, on this level before the skipped type, or on a lower one
      have hne : decided m (c.level (n + 1) [t]) ≠ none := by
        rw [level_succ_singleton, hown]
        exact Option.some_ne_none b'
      obtain ⟨k, hk, hqueue⟩ := exists_level_of_seen h hseen ht hne
      have hlower := hbefore k hk
      rw [decided_level_append, ne_eq, Option.or_eq_none_iff, not_and_or] at hqueue
      rcases hqueue with hnow | hnext
      · refine absurd ?_ hnow
        cases k with
        | zero =>
          rw [front, decided_level_cons, Option.or_eq_none_iff] at hlower
          exact hlower.2
        | succ k =>
          rw [front, List.flatMap_cons, decided_level_append, decided_level_append,
            Option.or_eq_none_iff, Option.or_eq_none_iff] at hlower
          exact hlower.2.2
      · rcases Nat.lt_succ_iff_lt_or_eq.1 hk with hk | rfl
        · have hlater := hbefore (k + 1) (Nat.succ_lt_succ hk)
          rw [front, decided_level_append, Option.or_eq_none_iff] at hlater
          exact absurd hlater.1 hnext
        · obtain ⟨b'', hb''⟩ := Option.ne_none_iff_exists'.1 hnext
          rw [hb'', Option.some_or, Option.some_or]

/-- What the walk decides is the first answer of its front. By induction along the walk, where a
queue is any split into a part of this level and a part of the next one. The four cases are those of
the walk: nothing left, a seen type, an undeclared one, and a declared one, which answers or goes to
the seen types. -/
theorem decided_spread_front (h : c.Covered seen queue)
    (hseen : ∀ t ∈ seen, ∀ d, c.find? t = some d → decided m [d] = none)
    {now next : List TypeName} (hqueue : queue = now ++ next) :
    decided m (c.spread seen queue) = some b ↔ FirstAnswer (c.front m now next) b := by
  fun_induction spread c seen queue generalizing now next with
  | case1 seen =>
    obtain ⟨rfl, rfl⟩ := List.append_eq_nil_iff.1 hqueue.symm
    constructor
    · intro hb
      cases hb
    · rintro ⟨n, hn, -⟩
      cases n <;> simp [front] at hn
  | case2 seen t queue ht ih =>
    have hskip := h.skip (Or.inl ht)
    refine firstAnswer_front_of_cons (fun now next hq => ?_) hqueue
    rw [ih hskip hseen hq, firstAnswer_front_skip (hq ▸ hskip) hseen ht]
  | case3 seen t queue ht hnone ih =>
    refine firstAnswer_front_of_cons (fun now next hq => ?_) hqueue
    rw [ih (h.skip (Or.inr hnone)) hseen hq]
    refine firstAnswer_congr fun n _ => ?_
    cases n with
    | zero => rw [front, front, decided_level_cons, level_of_undeclared hnone, decided_nil,
        Option.none_or]
    | succ n => rw [front, front, List.flatMap_cons, supertypesOf_eq_nil hnone, List.nil_append]
  | case4 seen t queue ht d hd ih =>
    refine firstAnswer_front_of_cons (fun now next hq => ?_) hqueue
    have hzero := front_cons_zero hd m now next
    rw [decided_cons]
    rcases hown : decided m [d] with _ | b'
    · -- the type decides nothing, and what it derives from is of the next level
      have hseen' : ∀ s ∈ t :: seen, ∀ e, c.find? s = some e → decided m [e] = none := by
        intro s hs e he
        rcases List.mem_cons.1 hs with rfl | hs
        · rw [hd] at he
          cases he
          exact hown
        · exact hseen s hs e he
      rw [Option.none_or, ih (h.visit hd) hseen'
        (show queue ++ d.supertypes = now ++ (next ++ d.supertypes) by rw [hq, List.append_assoc])]
      refine firstAnswer_congr fun n _ => ?_
      cases n with
      | zero => rw [hzero, hown, Option.none_or]
      | succ n => rw [front_cons_succ hd]
    · -- the type decides
      rw [hown, Option.some_or] at hzero
      rw [Option.some_or]
      constructor
      · intro hb
        exact ⟨0, hzero.trans hb, fun k hk => absurd hk (Nat.not_lt_zero k)⟩
      · rintro ⟨n, hn, hbefore⟩
        cases n with
        | zero => exact hzero.symm.trans hn
        | succ n => exact absurd (hzero.symm.trans (hbefore 0 (Nat.succ_pos n))) (by simp)

/-- **The lowest level decides.** A walk that has seen no declaration of a member finds its first
one on the lowest level that has any, and there it finds the first. -/
theorem decided_spread_iff (h : c.Covered seen queue)
    (hseen : ∀ t ∈ seen, ∀ d, c.find? t = some d → decided m [d] = none) :
    decided m (c.spread seen queue) = some b ↔
      FirstAnswer (fun n => decided m (c.level n queue)) b := by
  rw [decided_spread_front h hseen (List.append_nil queue).symm]
  refine firstAnswer_congr fun n _ => ?_
  cases n with
  | zero => rfl
  | succ n => rw [front, level, List.nil_append]

/-! ## The climb

A chain stops where it comes back to a type it has seen. A `climb` does not notice and takes a given
number of steps, along a circle again and again if there is one. All it repeats has been said
before, so from the length of the chain on it decides what the chain decides. With that the
hierarchy is described by climbs and levels alone, in `decided_hierarchy_iff`, and no statement
after it mentions what was seen. -/

/-- The type and the classes it extends, as far as a number of steps goes. -/
def climb (c : Catalog) : Nat → TypeName → List DeclaredType
  | 0, _ => []
  | n + 1, t => match c.find? t with
    | none => []
    | some d => d :: d.superclass.toList.flatMap (c.climb n)

/-- The interfaces that are listed along the climb. -/
def listed (c : Catalog) (n : Nat) (t : TypeName) : List TypeName :=
  (c.climb n t).flatMap (·.interfaces)

/-- There is nothing to climb from an undeclared type. -/
theorem climb_of_undeclared (h : c.find? t = none) (n : Nat) : c.climb n t = [] := by
  cases n with
  | zero => rfl
  | succ n => rw [climb, h]

/-- A declared type comes first, and its superclass is where the climb goes on. -/
theorem climb_succ (h : c.find? t = some d) (n : Nat) :
    c.climb (n + 1) t = d :: d.superclass.toList.flatMap (c.climb n) := by
  rw [climb, h]

/-- The interfaces of a type come before those that its superclass has listed. -/
theorem listed_succ (h : c.find? t = some d) (n : Nat) :
    c.listed (n + 1) t = d.interfaces ++ d.superclass.toList.flatMap (c.listed n) := by
  rw [listed, climb_succ h, List.flatMap_cons, List.flatMap_assoc]
  rfl

theorem listed_of_undeclared (h : c.find? t = none) (n : Nat) : c.listed n t = [] := by
  rw [listed, climb_of_undeclared h, List.flatMap_nil]

/-- A climb goes on with the superclass. -/
theorem climb_superclass_subset {s : TypeName} (h : c.find? t = some d)
    (hs : d.superclass = some s) (n : Nat) : c.climb n s ⊆ c.climb (n + 1) t := by
  rw [climb_succ h, hs, Option.toList_some, List.flatMap_singleton]
  exact List.subset_cons_self _ _

/-- What the superclass has listed, the type has listed one step later. -/
theorem listed_superclass_subset {s : TypeName} (h : c.find? t = some d)
    (hs : d.superclass = some s) (n : Nat) : c.listed n s ⊆ c.listed (n + 1) t := by
  rw [listed_succ h, hs, Option.toList_some, List.flatMap_singleton]
  exact List.subset_append_right _ _

/-- A type lists its own interfaces as soon as it is climbed from at all. -/
theorem interfaces_subset_listed (h : c.find? t = some d) (n : Nat) :
    d.interfaces ⊆ c.listed (n + 1) t := by
  rw [listed_succ h]
  exact List.subset_append_left _ _

/-- A longer climb begins like a shorter one. -/
theorem climb_isPrefix {n k : Nat} (h : n ≤ k) (t : TypeName) : c.climb n t <+: c.climb k t := by
  induction n generalizing k t with
  | zero => exact List.nil_prefix
  | succ n ih =>
    obtain ⟨k, rfl⟩ := Nat.exists_eq_add_of_le' (Nat.lt_of_lt_of_le (Nat.succ_pos n) h)
    rcases hd : c.find? t with _ | d
    · rw [climb_of_undeclared hd]
      exact List.nil_prefix
    · rw [climb_succ hd, climb_succ hd]
      refine (List.prefix_cons_inj d).2 ?_
      cases d.superclass with
      | none => exact List.prefix_rfl
      | some s => simpa using ih (Nat.le_of_succ_le_succ h) s

/-- So what it lists does too. -/
theorem listed_isPrefix {n k : Nat} (h : n ≤ k) (t : TypeName) : c.listed n t <+: c.listed k t := by
  obtain ⟨rest, hrest⟩ := climb_isPrefix (c := c) h t
  rw [listed, listed, ← hrest, List.flatMap_append]
  exact List.prefix_append _ _

/-- A chain is a climb that stops before it repeats itself. -/
theorem chain_eq_climb (c : Catalog) (seen : List TypeName) (t : TypeName) :
    c.chain seen t = c.climb (c.chain seen t).length t := by
  fun_induction chain c seen t with
  | case1 seen t ht => rfl
  | case2 seen t ht hnone => rfl
  | case3 seen t ht d hd ih =>
    rw [List.length_cons, climb_succ hd]
    cases hs : d.superclass with
    | none => rfl
    | some s => simpa [hs] using ih s

/-- A climb passes declared types only. -/
theorem find?_of_mem_climb {n : Nat} (h : d ∈ c.climb n t) : c.find? d.name = some d := by
  induction n generalizing t with
  | zero => exact absurd h List.not_mem_nil
  | succ n ih =>
    rcases he : c.find? t with _ | e
    · rw [climb_of_undeclared he] at h
      exact absurd h List.not_mem_nil
    · rw [climb_succ he, List.mem_cons, List.mem_flatMap] at h
      rcases h with rfl | ⟨s, -, hd⟩
      · rw [name_of_find? he, he]
      · exact ih hd

theorem find?_of_mem_chain (h : d ∈ c.chain seen t) : c.find? d.name = some d := by
  rw [chain_eq_climb] at h
  exact find?_of_mem_climb h

/-- A chain begins with its type, unless that was seen or is undeclared. -/
theorem chain_head (c : Catalog) (seen : List TypeName) (t : TypeName) :
    t ∈ seen ∨ c.find? t = none ∨ t ∈ (c.chain seen t).map (·.name) := by
  rw [chain_eq]
  split
  · rename_i ht
    exact Or.inl ht
  · rcases hd : c.find? t with _ | d
    · exact Or.inr (Or.inl rfl)
    · exact Or.inr (Or.inr (by simp [name_of_find? hd]))

/-- A chain does not stop before an unseen superclass. -/
theorem superclass_of_mem_chain {s : TypeName} (hd : d ∈ c.chain seen t)
    (hs : d.superclass = some s) :
    s ∈ seen ∨ c.find? s = none ∨ s ∈ (c.chain seen t).map (·.name) := by
  fun_induction chain c seen t with
  | case1 seen t ht => exact absurd hd List.not_mem_nil
  | case2 seen t ht hnone => exact absurd hd List.not_mem_nil
  | case3 seen t ht e he ih =>
    have hname := name_of_find? he
    rcases hu : e.superclass with _ | u
    · simp only [hu, List.mem_singleton] at hd
      rw [hd, hu] at hs
      cases hs
    · simp only [hu, List.mem_cons] at hd
      have hnext : s ∈ t :: seen ∨ c.find? s = none ∨
          s ∈ (c.chain (t :: seen) u).map (·.name) := by
        rcases hd with rfl | hd
        · rw [hu] at hs
          rw [← Option.some.inj hs]
          exact c.chain_head (t :: seen) u
        · exact ih u hd
      simp only [List.map_cons, List.mem_cons, hname]
      rcases hnext with hseen | hrest
      · exact (List.mem_cons.1 hseen).elim (fun h => Or.inr (Or.inr (Or.inl h))) Or.inl
      · exact Or.inr (hrest.imp id Or.inr)

/-- A climb never leaves the chain: the types it comes to are on the chain, or they are undeclared
and the climb ends. -/
theorem climb_subset_chain (c : Catalog) (n : Nat) (t : TypeName) :
    c.climb n t ⊆ c.chain [] t := by
  have hall : ∀ n u, (c.find? u = none ∨ u ∈ (c.chain [] t).map (·.name)) →
      c.climb n u ⊆ c.chain [] t := by
    intro n
    induction n with
    | zero => exact fun u _ => List.nil_subset _
    | succ n ih =>
      rintro u (hu | hu)
      · rw [climb_of_undeclared hu]
        exact List.nil_subset _
      · obtain ⟨d, hd, rfl⟩ := List.mem_map.1 hu
        have hfind := find?_of_mem_chain hd
        rw [climb_succ hfind]
        refine List.cons_subset.2 ⟨hd, ?_⟩
        cases hs : d.superclass with
        | none => exact List.nil_subset _
        | some s =>
          rw [Option.toList_some, List.flatMap_singleton]
          exact ih s ((superclass_of_mem_chain hd hs).resolve_left List.not_mem_nil)
  exact hall n t ((c.chain_head [] t).resolve_left List.not_mem_nil)

/-- The walk after the chain has all there is to do in its queue. What a class of the chain derives
from is the next class, which was seen unless it is undeclared, or a listed interface, which waits.
-/
theorem covered_chain (c : Catalog) (t : TypeName) :
    c.Covered ((c.chain [] t).map (·.name)) ((c.chain [] t).flatMap (·.interfaces)) := by
  intro s hs u hu
  obtain ⟨d, hd, rfl⟩ := List.mem_map.1 hs
  have hfind := find?_of_mem_chain hd
  rcases List.mem_append.1 ((derives_iff hfind).1 hu) with hsuper | hlisted
  · rcases superclass_of_mem_chain hd (Option.mem_toList.1 hsuper) with hnil | hnone | hmem
    · exact absurd hnil List.not_mem_nil
    · exact Or.inr (Or.inr hnone)
    · exact Or.inl hmem
  · exact Or.inr (Or.inl (List.mem_flatMap.2 ⟨d, hd, hlisted⟩))

/-- From some step on, the climb repeats the chain. -/
theorem decided_climb_of_le {n : Nat} (h : (c.chain [] t).length ≤ n) :
    decided m (c.climb n t) = decided m (c.chain [] t) := by
  refine decided_eq_of_prefix ?_ (c.climb_subset_chain n t)
  rw [c.chain_eq_climb [] t]
  exact climb_isPrefix h t

/-- Whatever some climb decides, the chain decides. -/
theorem decided_chain_of_climb {n : Nat} (h : decided m (c.climb n t) = some b) :
    decided m (c.chain [] t) = some b := by
  rw [← decided_climb_of_le (Nat.le_max_right n (c.chain [] t).length)]
  exact decided_of_prefix (climb_isPrefix (Nat.le_max_left n (c.chain [] t).length) t) h

/-- The queue after the chain: the interfaces that are listed along it. -/
def queueOf (c : Catalog) (t : TypeName) : List TypeName := (c.chain [] t).flatMap (·.interfaces)

/-- From some step on, the interfaces that are listed along the climb lead where the queue leads. -/
theorem decided_listed_of_le {k : Nat} (h : (c.chain [] t).length ≤ k) (n : Nat) :
    decided m (c.level n (c.listed k t)) = decided m (c.level n (c.queueOf t)) := by
  have hprefix : c.queueOf t <+: c.listed k t := by
    have hsame : c.queueOf t = c.listed (c.chain [] t).length t := by
      rw [queueOf, listed, ← c.chain_eq_climb [] t]
    exact hsame ▸ listed_isPrefix h t
  refine decided_eq_of_prefix (level_isPrefix hprefix) (level_subset fun u hu => ?_)
  obtain ⟨d, hd, hu⟩ := List.mem_flatMap.1 hu
  exact List.mem_flatMap.2 ⟨d, c.climb_subset_chain k t hd, hu⟩

/-- Whatever is decided on a level below listed interfaces is decided there below the queue. -/
theorem decided_queueOf_of_listed {k n : Nat}
    (h : decided m (c.level n (c.listed k t)) = some b) :
    decided m (c.level n (c.queueOf t)) = some b := by
  rw [← decided_listed_of_le (Nat.le_max_right k (c.chain [] t).length)]
  exact decided_of_prefix
    (level_isPrefix (listed_isPrefix (Nat.le_max_left k (c.chain [] t).length) t)) h

/-- If the chain does not declare the member, the lowest level below the queue decides. The seen
types of the walk are those of the chain, and none of them says anything. -/
theorem decided_hierarchy_of_chain_eq_none (h : decided m (c.chain [] t) = none) :
    decided m (c.hierarchy t) = some b ↔
      FirstAnswer (fun n => decided m (c.level n (c.queueOf t))) b := by
  have hseen : ∀ s ∈ (c.chain [] t).map (·.name), ∀ d, c.find? s = some d →
      decided m [d] = none := by
    intro s hs d hd
    obtain ⟨e, he, rfl⟩ := List.mem_map.1 hs
    cases (find?_of_mem_chain he).symm.trans hd
    exact decided_eq_none_iff.1 h _ he
  rw [hierarchy, decided_append, h, Option.none_or, decided_spread_iff (c.covered_chain t) hseen]
  rfl

/-- **What decides about a member of a type.** If the climb declares it, the climb decides.
Otherwise it is decided on the lowest level below the listed interfaces that declares it. The
numbers of steps are any that suffice: a hierarchy is compared with another one by moving from climb
to climb and from level to level, without knowing how long the chains are. -/
theorem decided_hierarchy_iff : decided m (c.hierarchy t) = some b ↔
    (∃ n, decided m (c.climb n t) = some b) ∨
    (∀ n, decided m (c.climb n t) = none) ∧
      ∃ k n, decided m (c.level n (c.listed k t)) = some b ∧
        ∀ i < n, ∀ k, decided m (c.level i (c.listed k t)) = none := by
  rcases hdecided : decided m (c.chain [] t) with _ | b'
  · have hnone : ∀ n, decided m (c.climb n t) = none := by
      intro n
      by_contra hne
      obtain ⟨b', hb'⟩ := Option.ne_none_iff_exists'.1 hne
      rw [decided_chain_of_climb hb'] at hdecided
      cases hdecided
    rw [decided_hierarchy_of_chain_eq_none hdecided]
    constructor
    · rintro ⟨n, hn, hbefore⟩
      refine Or.inr ⟨hnone, _, n, (decided_listed_of_le (Nat.le_refl _) n).trans hn,
        fun i hi k => ?_⟩
      by_contra hne
      obtain ⟨b', hb'⟩ := Option.ne_none_iff_exists'.1 hne
      have hlower : decided m (c.level i (c.queueOf t)) = none := hbefore i hi
      rw [decided_queueOf_of_listed hb'] at hlower
      cases hlower
    · rintro (⟨n, hn⟩ | ⟨-, k, n, hn, hbefore⟩)
      · rw [hnone] at hn
        cases hn
      · exact ⟨n, decided_queueOf_of_listed hn, fun i hi =>
          (decided_listed_of_le (Nat.le_refl _) i).symm.trans (hbefore i hi _)⟩
  · rw [hierarchy, decided_append, hdecided, Option.some_or]
    constructor
    · intro hb
      exact Or.inl ⟨_, (decided_climb_of_le (Nat.le_refl _)).trans (hdecided.trans hb)⟩
    · rintro (⟨n, hn⟩ | ⟨hnone, -⟩)
      · exact hdecided.symm.trans (decided_chain_of_climb hn)
      · rw [← decided_climb_of_le (Nat.le_refl _), hnone] at hdecided
        cases hdecided

end Catalog

end PlatformWiring
