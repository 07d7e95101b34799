import Mathlib.Data.List.Nodup
import PlatformWiring.Output.Sink

/-!
# Handing several units to a sink

Every unit is attempted, in order, whatever became of the ones before it, and each attempt is
either counted as written or as a failure. A traced sink keeps the attempts and passes every
unit on, so that its state shows what somebody handed to the sink.
-/

namespace PlatformWiring

universe u

namespace Attempt

/-- An attempt that went well. -/
def done (u : SourceUnit) : Attempt := ⟨u, .ok ()⟩

/-- An attempt counts as a failure exactly if it had a fault. -/
theorem failure?_eq_none_iff {a : Attempt} : a.failure? = none ↔ a.result = .ok () := by
  obtain ⟨unit, e | ⟨⟨⟩⟩⟩ := a <;> simp [failure?]

/-- A failure names the type of its unit. -/
theorem name_of_failure? {a : Attempt} {f : WriteFailure} (h : a.failure? = some f) :
    f.name = a.unit.name := by
  obtain ⟨unit, e | ⟨⟨⟩⟩⟩ := a
  · cases h
    rfl
  · cases h

/-- The types that were written and those that failed are the types that were attempted. -/
theorem perm_written_failures (as : List Attempt) :
    (as.filterMap (·.written?) ++ (as.filterMap (·.failure?)).map (·.name)).Perm
      (as.map (·.unit.name)) := by
  induction as with
  | nil => exact .refl _
  | cons a as ih =>
    obtain ⟨unit, e | ⟨⟨⟩⟩⟩ := a
    · exact List.perm_middle.trans (ih.cons unit.name)
    · exact ih.cons unit.name

/-- If no type was attempted twice, what was written is what no failure names. -/
theorem filter_not_failed {as : List Attempt} (hnodup : (as.map (·.unit.name)).Nodup) :
    ((as.map (·.unit.name)).filter fun n =>
      !(as.filterMap (·.failure?)).any fun f => decide (f.name = n)) =
      as.filterMap (·.written?) := by
  -- a failure that names the attempt is its own
  have hfailed : ∀ a ∈ as,
      ((as.filterMap (·.failure?)).any fun f => decide (f.name = a.unit.name)) =
        a.failure?.isSome := by
    intro a ha
    rw [Bool.eq_iff_iff, List.any_eq_true, Option.isSome_iff_exists]
    constructor
    · rintro ⟨f, hf, hname⟩
      obtain ⟨b, hb, hbf⟩ := List.mem_filterMap.1 hf
      have hab : b.unit.name = a.unit.name :=
        (name_of_failure? hbf).symm.trans (of_decide_eq_true hname)
      rw [← List.inj_on_of_nodup_map hnodup hb ha hab]
      exact ⟨f, hbf⟩
    · rintro ⟨f, hf⟩
      exact ⟨f, List.mem_filterMap.2 ⟨a, ha, hf⟩, by simp [name_of_failure? hf]⟩
  rw [List.filter_map, ← List.filterMap_eq_map, List.filterMap_filter]
  refine List.filterMap_congr fun a ha => ?_
  simp only [Function.comp_apply, hfailed a ha]
  obtain ⟨unit, e | ⟨⟨⟩⟩⟩ := a <;> rfl

end Attempt

namespace Sink

variable {σ : Type u} (k : Sink σ)

/-- Every unit is attempted once, in order. -/
theorem units_writeAll (s : σ) (us : List SourceUnit) :
    (k.writeAll s us).attempts.map (·.unit) = us := by
  induction us generalizing s with
  | nil => rfl
  | cons u us ih => simp [writeAll, ih]

/-- Nothing failed exactly if every attempt went well. -/
theorem isComplete_iff {w : WrittenAll σ} :
    w.isComplete = true ↔ ∀ a ∈ w.attempts, a.result = .ok () := by
  rw [WrittenAll.isComplete, List.isEmpty_iff, WrittenAll.failures, List.filterMap_eq_nil_iff]
  simp only [Attempt.failure?_eq_none_iff]

/-- All goes well if the first unit does and then the others do, in the state that it leaves. -/
theorem isComplete_writeAll_cons {s : σ} {u : SourceUnit} {us : List SourceUnit} :
    (k.writeAll s (u :: us)).isComplete = true ↔
      (k.write s u).result = .ok () ∧ (k.writeAll (k.write s u).state us).isComplete = true := by
  simp [isComplete_iff, writeAll]

/-- A sink in memory takes whatever it finds no fault with. -/
theorem isComplete_memory {refuse : SourceUnit → Option Fault} {us : List SourceUnit}
    (h : ∀ u ∈ us, refuse u = none) (kept : List SourceUnit) :
    ((memory refuse).writeAll kept us).isComplete = true := by
  induction us generalizing kept with
  | nil => rfl
  | cons u us ih =>
    refine (isComplete_writeAll_cons _).2 ⟨?_, ih (fun v hv => h v (List.mem_cons_of_mem _ hv)) _⟩
    simp only [memory, h u List.mem_cons_self]

/-! ## Traces

A sink is any state with a write, so what somebody hands to it cannot be read off its state. The
traced sink keeps that beside the state. It writes and answers as the plain one does, so what is
true of its trace is true of the plain run. -/

/-- The sink that keeps every attempt beside its state. -/
def traced : Sink (σ × List Attempt) where
  write st u :=
    let w := k.write st.1 u
    ⟨(w.state, st.2 ++ [⟨u, w.result⟩]), w.result, w.events⟩

/-- A write of the traced sink adds its attempt to the trace. -/
theorem write_traced (s : σ) (trace : List Attempt) (u : SourceUnit) :
    k.traced.write (s, trace) u =
      ⟨((k.write s u).state, trace ++ [⟨u, (k.write s u).result⟩]), (k.write s u).result,
        (k.write s u).events⟩ := rfl

/-- Keeping the attempts changes nothing else. -/
theorem writeAll_traced (s : σ) (trace : List Attempt) (us : List SourceUnit) :
    k.traced.writeAll (s, trace) us =
      { state := ((k.writeAll s us).state, trace ++ (k.writeAll s us).attempts)
        attempts := (k.writeAll s us).attempts
        events := (k.writeAll s us).events } := by
  induction us generalizing s trace with
  | nil => simp [writeAll]
  | cons u us ih =>
    simp only [writeAll, write_traced, ih, List.append_assoc, List.singleton_append]

end Sink

end PlatformWiring
