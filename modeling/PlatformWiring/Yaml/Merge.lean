import PlatformWiring.Document.Run
import PlatformWiring.Yaml.Node

/-!
# Entries of mappings

A mapping has its own entries, each key once, and may merge in those of other mappings with
the key `<<`. Merged entries come after its own, those that were merged in last before the
others, and one whose key is already there is left out: own entries win over merged ones, and
later merged ones over earlier.
-/

namespace PlatformWiring.Yaml

namespace Node

/-- The key under which mappings are merged in. -/
def isMergeKey : Node → Bool
  | .scalar _ .plain .none text => text == "<<"
  | _ => false

/-- What has to agree for two keys to be the same. -/
abbrev KeyText := Tag × String

/-- What has to agree with another key, for a key that is a scalar. -/
def keyText? : Node → Option KeyText
  | .scalar _ _ tag text => some (tag, text)
  | _ => none

/-- The complaint about a value that cannot be merged. -/
def unmergeable (n : Node) : Complaint :=
  ⟨"YAML merge value must be mapping or sequence of mappings", n.position?⟩

mutual

/-- The entries that a merged value contributes. -/
def merged : Node → Except Complaint (List (Node × Node))
  | .mapping _ _ entries _ => do
    let (own, others) ← mergedEntries entries
    return own ++ others
  | .sequence _ items _ => mergedItems items
  | .scalar p style tag text =>
    if (Node.scalar p style tag text).isBlank then .ok []
    else .error (unmergeable (.scalar p style tag text))
  | .byte n => .error (unmergeable (.byte n))
  | .broken e => .error e

/-- The entries that the items of a merged sequence contribute, those of the last item first. -/
def mergedItems : List Node → Except Complaint (List (Node × Node))
  | [] => .ok []
  | n :: ns => do
    let entries ← n.merged
    return (← mergedItems ns) ++ entries

/-- The own entries of a merged mapping, and those that are merged into it in turn, the last ones
first. -/
def mergedEntries :
    List (Node × Node) → Except Complaint (List (Node × Node) × List (Node × Node))
  | [] => .ok ([], [])
  | (k, v) :: es =>
    if k.isMergeKey then do
      let entries ← v.merged
      let (own, others) ← mergedEntries es
      return (own, others ++ entries)
    else do
      let (own, others) ← mergedEntries es
      return ((k, v) :: own, others)

end

/-- The complaint about a key that was there before. A key that is no text is not named. -/
def repeatedKey (k : Node) : KeyText → Complaint
  | (.none, text) | (.bare, text) | (.other, text) =>
    ⟨"duplicate mapping key: " ++ text, k.position?⟩
  | _ => ⟨"duplicate mapping key", k.position?⟩

/-- The merged entries whose keys are not there yet. -/
def fresh (seen : List KeyText) : List (Node × Node) → List (Node × Node)
  | [] => []
  | (k, v) :: es =>
    match k.keyText? with
    | none => (k, v) :: fresh seen es
    | some text => if text ∈ seen then fresh seen es else (k, v) :: fresh (text :: seen) es

/-- The entries of a mapping, in the order in which they are met. -/
def entries (fault? : Option Complaint) (seen : List KeyText) (others : List (Node × Node)) :
    List (Node × Node) → Run Complaint (Node × Node)
  | [] => match fault? with
    | some e => .broken e
    | none => .ofList none (fresh seen others)
  | (k, v) :: es =>
    match k.fault? with
    | some e => .broken e
    | none =>
      if k.isMergeKey then
        match v.fault?, v.merged with
        | some e, _ => .broken e
        | none, .error e => .broken e
        | none, .ok more => entries fault? seen (more ++ others) es
      else
        match k.keyText? with
        | none => .next (k, v) (entries fault? seen others es)
        | some text =>
          if text ∈ seen then .broken (k.repeatedKey text)
          else .next (k, v) (entries fault? (text :: seen) others es)

end Node

end PlatformWiring.Yaml
