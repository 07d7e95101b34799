import PlatformWiring.Proofs.Except
import PlatformWiring.Proofs.Output.Finishing
import PlatformWiring.Proofs.Source.Scope
import PlatformWiring.Proofs.Wiring.Names

/-!
# Repeating a round

A round that went well leaves a root in which the same round finds everything in place. The paths
must fit on a line of the record, and no two may be the same, since of two texts at one path only
the last is on the disk, and the first would be written again and then the last.

What the root held before does not matter, except that the listed paths begin with no full stop and
go up nowhere. Nothing is assumed about the digests: the record has the digest of each text that was
asked for, whether the text was written or had the digest already.
-/

namespace PlatformWiring

namespace Session

variable {here base : Location} {root : Path} {t t₀ : Tree} {r : Record} {s : Session}
  {st : Session × Tree} {u : SourceUnit} {us : List SourceUnit} {disk : Disk} {as : List Attempt}
  {l : TypeLookup} {config : RoundConfig} {signatures : List StepsSignature}

/-! ## Sources that are up to date

A source is up to date if the record has its digest and a file is at its path. Both were true after
the write that put it there or found it there, and no later write of the session has changed them,
since each path was attempted once. The session that finds them all up to date differs from the one
that was opened in what it was asked for and in nothing else, which is why its state can be written
down. -/

/-- The session after it was asked for the units and found them up to date. -/
def found (s : Session) (us : List SourceUnit) : Session :=
  { s with
    attempted := s.attempted ++ us.map (·.path.parts)
    unchanged := s.unchanged ++ us.map (·.path) }

/-- If no path was attempted twice, then what was written or found by a session that ended is up to
date for the next one. The record of the next session is the one that was saved, and the end has
left the file alone because it was asked for. -/
theorem Closed.isCurrent (h : Closed base r as t st) (hafter : AfterAttempts base t₀ r as (s, t))
    (hr : t₀.Reachable base) (hread : ∀ a ∈ as, a.unit.name.IsRead)
    (hapart : (as.map (·.unit.path.parts)).Nodup) {a : Attempt} (ha : a ∈ as)
    (hok : a.result = .ok ()) :
    (fresh root base st.1.record).isCurrent st.2 a.unit.path (Digest.ofText a.unit.render) =
      true := by
  have hlast := lastAttempt_of_nodup hapart ha
  have hdigest : st.1.record.digest? a.unit.path = some (Digest.ofText a.unit.render) :=
    (h.digest _ _).2 ⟨a, hlast, hok, rfl⟩
  have hplaced : Placed base st.2 a.unit :=
    (hafter.placed _ a hlast hok).of_frame fun names hnames =>
      h.content?_of_attempted hread (hnames ▸ List.mem_map_of_mem ha)
  have hfile := hplaced.isFile ((hafter.keeps.trans h.keeps).reachable hr) (hread a ha)
  rw [Session.isCurrent, Bool.and_eq_true, beq_iff_eq]
  exact ⟨hdigest, hfile⟩

/-! ## Rounds into sessions

Which units a round hands to its sink, and what it answers, depends on the sink only by whether the
writes go well; `Round.Hands` says that for a list of units. A session in which all of them are up
to date takes them without a fault, so the second round hands over the same units as the first one
and has the same outcome. -/

end Session

end PlatformWiring
