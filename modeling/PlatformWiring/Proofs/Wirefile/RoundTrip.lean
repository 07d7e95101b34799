import PlatformWiring.Proofs.Document.Format
import PlatformWiring.Proofs.TypeName
import PlatformWiring.Proofs.Version
import PlatformWiring.Wirefile.Encode

/-!
# Wirefiles put back into values

What is read of a Wirefile, from whatever format, is well formed: its names are names that can be
read, its selection of platforms holds one, and its version is in normal form. What is well formed
is read back from its plain value. So a value that was read once and put back is read as the same,
and putting it back again changes nothing.
-/

namespace PlatformWiring

variable {ν ε α σ : Type}

/-! ## Plain values

Plain values are a format like the others, and the one in which a Wirefile is put back. The reader
of each kind of value undoes the encoder of that kind. In a record the fields come in the order in
which they were written, so reading one goes through its entries from left to right. -/

namespace Value

variable {read : Value → Except Fault α} {encode : α → Value}

theorem text_text (expected s : String) : format.text expected (.text s) = .ok s := rfl

/-- A list is read back if its entries are. -/
theorem list_ofList {as : List α} (h : ∀ a ∈ as, read (encode a) = .ok a) :
    format.list read (.ofList encode as) = .ok as := by
  change (Run.ofList none (as.map encode)).readAll read = .ok as
  induction as with
  | nil => rfl
  | cons a as ih =>
    rw [List.forall_mem_cons] at h
    simp only [List.map_cons, Run.ofList, Run.readAll, h.1, ih h.2]
    rfl

/-- A field that may be absent is read back. What is there must not be encoded as null, as that
would be read as absent. -/
theorem optional_ofOption {a? : Option α} (hnull : ∀ a, encode a ≠ .null)
    (h : ∀ a ∈ a?, read (encode a) = .ok a) :
    format.optional read (.ofOption encode a?) = .ok a? := by
  cases a? with
  | none => rfl
  | some a =>
    have hgiven : format.given? (encode a) = some (encode a) := by
      cases he : encode a with
      | null => exact absurd he (hnull a)
      | _ => rfl
    simp only [ofOption, Format.optional, hgiven, h a rfl]
    rfl

/-- A record is read by setting its fields one after the other, with none set before. -/
theorem record_record (shape : String) (slots : List (FieldSlot Value Fault σ)) (start : σ)
    (entries : List (String × Value)) :
    format.record shape slots start (.record entries) =
      format.setAll slots (fun _ name => .schema (.missingField name)) [] start
        (Run.ofList none entries) :=
  rfl

end Value

/-! ## Names, selections, versions

From here on there are two lemmas for each part of a Wirefile. The first one holds for any format:
what is read is well formed. The second one is about plain values: what is well formed is read back.
The parts are taken from the inside out. -/

variable {f : Format ν ε} {v : ν}

/-- A name is accepted by reading it, whatever the format. -/
theorem Format.isRead_of_typeName {t : TypeName} (h : f.typeName v = .ok t) : t.IsRead := by
  rw [typeName] at h
  split at h
  · cases h
  · split at h
    · cases h
    · rename_i hread
      cases h
      exact ⟨_, hread⟩

theorem TypeName.IsRead.decode_encode {t : TypeName} (h : t.IsRead) :
    Value.format.typeName t.encode = .ok t := by
  simp only [Format.typeName, encode, Value.text_text, h.read_qualified]

/-- So is a version. -/
theorem Format.wellFormed_of_version {n : Version} (h : f.version v = .ok n) : n.WellFormed := by
  rw [version] at h
  split at h
  · cases h
  · split at h
    · cases h
    · rename_i hread
      cases h
      exact Version.wellFormed_of_read hread

/-- A version in normal form is read back from its text. -/
theorem Version.WellFormed.decode_write {n : Version} (h : n.WellFormed) :
    Value.format.version (.text n.write) = .ok n := by
  simp only [Format.version, Value.text_text, read_write h]

/-- An empty list of platforms is refused, so a selection that was read holds one. -/
theorem Format.toList_ne_nil_of_selection {s : Selection} (h : f.selection v = .ok s) :
    s.toList ≠ [] := by
  rw [selection] at h
  split at h
  · cases h
  · cases h
  · rename_i ps hne hlist
    cases h
    obtain ⟨p, ps, rfl⟩ := List.exists_cons_of_ne_nil hne
    have hp : p ∈ (Selection.ofList (p :: ps)).toList := by
      rw [Selection.toList, List.mem_filter, Selection.contains_ofList]
      cases p <;> simp [Platform.all]
    exact List.ne_nil_of_mem hp

/-- A selection is written as the list of its platforms. Such a list repeats nothing, and reading it
makes the same selection, if it is not refused for being empty. -/
theorem Selection.decode_encode {s : Selection} (h : s.toList ≠ []) :
    Value.format.selection s.encode = .ok s := by
  have hlist : Value.format.list Value.format.platform s.encode = .ok s.toList :=
    Value.list_ofList fun p _ => by cases p <;> rfl
  obtain ⟨p, ps, hps⟩ := List.exists_cons_of_ne_nil h
  rw [Format.selection, hlist, hps]
  change Except.ok (Selection.ofList (p :: ps)) = _
  rw [← hps, ofList_toList]

/-! ## Members, constructors, types

What a record leaves to a default is well formed from the start, and what it has to give was read by
the time all fields are set. So the invariant along the entries of a record says of a required
field: if it was given, it is well formed. When the record has been read, the required fields were
given. -/

/-- Every member that is read is read back. -/
theorem MemberEntry.decode_encode (m : MemberEntry) : Value.format.member m.encode = .ok m := by
  obtain ⟨name, _ | b⟩ := m <;> rfl

/-- The names of a constructor can be read. -/
structure StepsSignature.WellFormed (s : StepsSignature) : Prop where
  steps : s.steps.IsRead
  actions : ∀ t ∈ s.actions, t.IsRead

/-- A constructor that was read has names that can be read. -/
theorem Format.wellFormed_of_stepsSignature {s : StepsSignature}
    (h : f.stepsSignature v = .ok s) : s.WellFormed := by
  have hkept := record_induction
    (P := fun given s => ("name" ∈ given → s.steps.IsRead) ∧ ∀ t ∈ s.actions, t.IsRead) h
    (by simp) ?keeps
  case keeps =>
    simp only [List.forall_mem_cons, List.not_mem_nil, false_imp_iff, implies_true, and_true,
      map_eq_ok_iff]
    refine ⟨?name, ?requires⟩
    case name =>
      rintro given s v _ hs ⟨n, hn, rfl⟩
      exact ⟨fun _ => isRead_of_typeName hn, hs.2⟩
    case requires =>
      rintro given s v _ hs ⟨ts, hts, rfl⟩
      exact ⟨fun hn => hs.1 (List.mem_of_ne_of_mem (by decide) hn),
        forall_of_list (fun _ _ => isRead_of_typeName) hts⟩
  obtain ⟨given, ⟨hname, hrequires⟩, hgiven⟩ := hkept
  exact ⟨hname (hgiven _ List.mem_cons_self rfl), hrequires⟩

/-- It is read back, one field after the other. -/
theorem StepsSignature.WellFormed.decode_encode {s : StepsSignature} (h : s.WellFormed) :
    Value.format.stepsSignature s.encode = .ok s := by
  have hname := h.steps.decode_encode
  have hrequires := Value.list_ofList fun t ht => (h.actions t ht).decode_encode
  simp [Format.stepsSignature, encode, Value.record_record, Run.ofList, Format.setAll,
    Format.absentFrom, hname, hrequires, Except.map]

/-- The names of a type can be read. -/
structure TypeEntry.WellFormed (t : TypeEntry) : Prop where
  name : t.name.IsRead
  superclass : ∀ s ∈ t.superclass, s.IsRead
  interfaces : ∀ i ∈ t.interfaces, i.IsRead

/-- A type that was read has names that can be read. Its kind and its members put no condition on
it. -/
theorem Format.wellFormed_of_typeEntry {t : TypeEntry} (h : f.typeEntry v = .ok t) :
    t.WellFormed := by
  have hkept := record_induction
    (P := fun given t => ("name" ∈ given → t.name.IsRead) ∧ (∀ s ∈ t.superclass, s.IsRead) ∧
      ∀ i ∈ t.interfaces, i.IsRead) h (by simp) ?keeps
  case keeps =>
    simp only [List.forall_mem_cons, List.not_mem_nil, false_imp_iff, implies_true, and_true,
      map_eq_ok_iff]
    refine ⟨?name, ?kind, ?superclass, ?interfaces, ?members⟩
    case name =>
      rintro given t v _ ht ⟨n, hn, rfl⟩
      exact ⟨fun _ => isRead_of_typeName hn, ht.2⟩
    case kind =>
      rintro given t v _ ht ⟨k, -, rfl⟩
      exact ⟨fun hn => ht.1 (List.mem_of_ne_of_mem (by decide) hn), ht.2⟩
    case superclass =>
      rintro given t v _ ht ⟨s, hs, rfl⟩
      exact ⟨fun hn => ht.1 (List.mem_of_ne_of_mem (by decide) hn),
        forall_of_optional (fun _ _ => isRead_of_typeName) hs, ht.2.2⟩
    case interfaces =>
      rintro given t v _ ht ⟨is, his, rfl⟩
      exact ⟨fun hn => ht.1 (List.mem_of_ne_of_mem (by decide) hn), ht.2.1,
        forall_of_list (fun _ _ => isRead_of_typeName) his⟩
    case members =>
      rintro given t v _ ht ⟨ms, -, rfl⟩
      exact ⟨fun hn => ht.1 (List.mem_of_ne_of_mem (by decide) hn), ht.2⟩
  obtain ⟨given, ⟨hname, hextends, himplements⟩, hgiven⟩ := hkept
  exact ⟨hname (hgiven _ List.mem_cons_self rfl), hextends, himplements⟩

/-- It is read back, with its kind by name and its members as they are. -/
theorem TypeEntry.WellFormed.decode_encode {t : TypeEntry} (h : t.WellFormed) :
    Value.format.typeEntry t.encode = .ok t := by
  have hname := h.name.decode_encode
  have hkind : Value.format.typeKind (.text t.kind.name) = .ok t.kind := by
    cases t.kind <;> rfl
  have hextends : Value.format.optional Value.format.typeName
      (.ofOption TypeName.encode t.superclass) = .ok t.superclass :=
    Value.optional_ofOption (fun _ => nofun) fun s hs => (h.superclass s hs).decode_encode
  have himplements := Value.list_ofList fun i hi => (h.interfaces i hi).decode_encode
  have hmembers := Value.list_ofList fun m (_ : m ∈ t.members) => m.decode_encode
  simp [Format.typeEntry, encode, Value.record_record, Run.ofList, Format.setAll,
    Format.absentFrom, hname, hkind, hextends, himplements, hmembers, Except.map]

/-! ## Layouts and Wirefiles

A layout need not give any of its names. Those that it leaves out are the standard ones, which are
names that can be read, and so a layout is well formed after each entry, whatever is still to come.
-/

/-- The names of a layout can be read. -/
structure Layout.WellFormed (l : Layout) : Prop where
  provider : l.provider.IsRead
  actionsModule : l.actionsModule.IsRead
  stepsModule : l.stepsModule.IsRead
  component : l.component.IsRead
  moduleAnnotation : l.moduleAnnotation.IsRead
  providesAnnotation : l.providesAnnotation.IsRead
  componentAnnotation : l.componentAnnotation.IsRead

/-- The names of the standard layout can be read. -/
theorem Layout.wellFormed_standard : standard.WellFormed := by
  constructor <;> rw [TypeName.isRead_iff] <;> decide +kernel

/-- Each field that is read replaces a name that can be read by another one. -/
theorem Format.wellFormed_of_layout {l : Layout} (h : f.layout v = .ok l) : l.WellFormed := by
  have hkept := record_induction (P := fun _ l => l.WellFormed) h
    Layout.wellFormed_standard ?keeps
  case keeps =>
    simp only [List.forall_mem_cons, List.not_mem_nil, false_imp_iff, implies_true, and_true,
      map_eq_ok_iff]
    refine ⟨?_, ?_, ?_, ?_, ?_, ?_, ?_⟩ <;> rintro given l v _ hl ⟨t, ht, rfl⟩
    · exact { hl with provider := isRead_of_typeName ht }
    · exact { hl with actionsModule := isRead_of_typeName ht }
    · exact { hl with stepsModule := isRead_of_typeName ht }
    · exact { hl with component := isRead_of_typeName ht }
    · exact { hl with moduleAnnotation := isRead_of_typeName ht }
    · exact { hl with providesAnnotation := isRead_of_typeName ht }
    · exact { hl with componentAnnotation := isRead_of_typeName ht }
  obtain ⟨-, hl, -⟩ := hkept
  exact hl

/-- A layout with all names written is read back. -/
theorem Layout.WellFormed.decode_encode {l : Layout} (h : l.WellFormed) :
    Value.format.layout l.encode = .ok l := by
  simp [Format.layout, encode, Value.record_record, Run.ofList, Format.setAll,
    Format.absentFrom, h.provider.decode_encode, h.actionsModule.decode_encode,
    h.stepsModule.decode_encode, h.component.decode_encode, h.moduleAnnotation.decode_encode,
    h.providesAnnotation.decode_encode, h.componentAnnotation.decode_encode, Except.map]

/-- All parts of a Wirefile are well formed. -/
structure Wirefile.WellFormed (w : Wirefile) : Prop where
  version : w.version.WellFormed
  platforms : ∀ s ∈ w.platforms, s.toList ≠ []
  layout : w.layout.WellFormed
  types : ∀ t ∈ w.types, t.WellFormed
  steps : ∀ s ∈ w.steps, s.WellFormed

/-- A document that was read is well formed, in all its parts. Only the version has to be given. -/
theorem Format.wellFormed_of_wirefile {w : Wirefile} (h : f.wirefile v = .ok w) :
    w.WellFormed := by
  have hkept := record_induction
    (P := fun given w => ("wire_version" ∈ given → w.version.WellFormed) ∧
      (∀ s ∈ w.platforms, s.toList ≠ []) ∧ w.layout.WellFormed ∧ (∀ t ∈ w.types, t.WellFormed) ∧
      ∀ s ∈ w.steps, s.WellFormed) h (by simp [Layout.wellFormed_standard]) ?keeps
  case keeps =>
    simp only [List.forall_mem_cons, List.not_mem_nil, false_imp_iff, implies_true, and_true,
      map_eq_ok_iff]
    refine ⟨?version, ?platforms, ?layout, ?types, ?steps⟩
    case version =>
      rintro given w v _ hw ⟨n, hn, rfl⟩
      exact ⟨fun _ => wellFormed_of_version hn, hw.2⟩
    case platforms =>
      rintro given w v _ ⟨hw, -, hrest⟩ ⟨ps, hps, rfl⟩
      exact ⟨fun hn => hw (List.mem_of_ne_of_mem (by decide) hn),
        forall_of_optional (fun _ _ => toList_ne_nil_of_selection) hps, hrest⟩
    case layout =>
      rintro given w v _ ⟨hw, hps, -, hrest⟩ ⟨l, hl, rfl⟩
      exact ⟨fun hn => hw (List.mem_of_ne_of_mem (by decide) hn), hps, wellFormed_of_layout hl,
        hrest⟩
    case types =>
      rintro given w v _ ⟨hw, hps, hl, -, hss⟩ ⟨ts, hts, rfl⟩
      exact ⟨fun hn => hw (List.mem_of_ne_of_mem (by decide) hn), hps, hl,
        forall_of_list (fun _ _ => wellFormed_of_typeEntry) hts, hss⟩
    case steps =>
      rintro given w v _ ⟨hw, hps, hl, hts, -⟩ ⟨ss, hss, rfl⟩
      exact ⟨fun hn => hw (List.mem_of_ne_of_mem (by decide) hn), hps, hl, hts,
        forall_of_list (fun _ _ => wellFormed_of_stepsSignature) hss⟩
  obtain ⟨given, ⟨hversion, hplatforms, hlayout, htypes, hsteps⟩, hgiven⟩ := hkept
  exact ⟨hversion (hgiven _ List.mem_cons_self rfl), hplatforms, hlayout, htypes, hsteps⟩

/-- A well-formed Wirefile is read back from its plain value. -/
theorem Wirefile.WellFormed.decode_encode {w : Wirefile} (h : w.WellFormed) :
    Value.format.wirefile w.encode = .ok w := by
  have hversion := h.version.decode_write
  have hplatforms : Value.format.optional Value.format.selection
      (.ofOption Selection.encode w.platforms) = .ok w.platforms :=
    Value.optional_ofOption (fun _ => nofun) fun s hs => Selection.decode_encode (h.platforms s hs)
  have hlayout := h.layout.decode_encode
  have htypes := Value.list_ofList fun t ht => (h.types t ht).decode_encode
  have hsteps := Value.list_ofList fun s hs => (h.steps s hs).decode_encode
  simp [Format.wirefile, encode, Value.record_record, Run.ofList, Format.setAll,
    Format.absentFrom, hversion, hplatforms, hlayout, htypes, hsteps, Except.map]

/-! ## Schemas

The document and each of its parts can be read on their own. So that what was shown for each of them
is one statement, a schema says which of them is meant, and what is read, how it is read and how it
is put back depend on the schema. -/

/-- The schemas: that of a document and those of its parts. -/
inductive Schema where
  | wirefile
  | layout
  | typeEntry
  | stepsSignature
  | member
  | selection
  | typeName
  deriving DecidableEq, Repr

namespace Schema

/-- What is read. -/
def Content : Schema → Type
  | .wirefile => Wirefile
  | .layout => Layout
  | .typeEntry => TypeEntry
  | .stepsSignature => StepsSignature
  | .member => MemberEntry
  | .selection => Selection
  | .typeName => TypeName

/-- Reading from a format. -/
def decode (f : Format ν ε) : (s : Schema) → ν → Except ε s.Content
  | .wirefile => f.wirefile
  | .layout => f.layout
  | .typeEntry => f.typeEntry
  | .stepsSignature => f.stepsSignature
  | .member => f.member
  | .selection => f.selection
  | .typeName => f.typeName

/-- The plain value. -/
def encode : (s : Schema) → s.Content → Value
  | .wirefile => Wirefile.encode
  | .layout => Layout.encode
  | .typeEntry => TypeEntry.encode
  | .stepsSignature => StepsSignature.encode
  | .member => MemberEntry.encode
  | .selection => Selection.encode
  | .typeName => TypeName.encode

/-- The plain value of what is read. -/
def normalize (f : Format ν ε) (s : Schema) (v : ν) : Except ε Value :=
  (s.decode f v).map s.encode

/-- What can be read back. -/
def WellFormed : (s : Schema) → s.Content → Prop
  | .wirefile => Wirefile.WellFormed
  | .layout => Layout.WellFormed
  | .typeEntry => TypeEntry.WellFormed
  | .stepsSignature => StepsSignature.WellFormed
  | .member => fun _ => True
  | .selection => fun s => s.toList ≠ []
  | .typeName => TypeName.IsRead

/-- What is read is well formed, whatever the format and the schema. -/
theorem wellFormed_of_decode {s : Schema} {c : s.Content} (h : s.decode f v = .ok c) :
    s.WellFormed c := by
  cases s with
  | wirefile => exact Format.wellFormed_of_wirefile h
  | layout => exact Format.wellFormed_of_layout h
  | typeEntry => exact Format.wellFormed_of_typeEntry h
  | stepsSignature => exact Format.wellFormed_of_stepsSignature h
  | member => exact trivial
  | selection => exact Format.toList_ne_nil_of_selection h
  | typeName => exact Format.isRead_of_typeName h

/-- What is well formed is read back from its plain value. -/
theorem WellFormed.decode_encode {s : Schema} {c : s.Content} (h : s.WellFormed c) :
    s.decode Value.format (s.encode c) = .ok c := by
  cases s with
  | wirefile => exact Wirefile.WellFormed.decode_encode h
  | layout => exact Layout.WellFormed.decode_encode h
  | typeEntry => exact TypeEntry.WellFormed.decode_encode h
  | stepsSignature => exact StepsSignature.WellFormed.decode_encode h
  | member => exact MemberEntry.decode_encode c
  | selection => exact Selection.decode_encode h
  | typeName => exact TypeName.IsRead.decode_encode h

/-- What can be read is what is well formed. -/
theorem wellFormed_iff {s : Schema} {c : s.Content} :
    s.WellFormed c ↔ ∃ v, s.decode Value.format v = .ok c :=
  ⟨fun h => ⟨_, h.decode_encode⟩, fun ⟨_, h⟩ => wellFormed_of_decode h⟩

/-- What was read from a document of any format is read back from its plain value. So the value
is accepted, and putting back what is read of it changes nothing any more. -/
theorem decode_encode_of_decode {f : Format ν ε} {s : Schema} {v : ν} {c : s.Content}
    (h : s.decode f v = .ok c) :
    s.decode Value.format (s.encode c) = .ok c ∧
      ∀ e, s.normalize f v = .ok e → s.normalize Value.format e = .ok e := by
  have hback := (wellFormed_of_decode h).decode_encode
  refine ⟨hback, fun e he => ?_⟩
  obtain ⟨c', hc', rfl⟩ := map_eq_ok_iff.1 he
  obtain rfl : c = c' := Except.ok.inj (h.symm.trans hc')
  exact map_eq_ok_iff.2 ⟨c, hback, rfl⟩

/-- A Wirefile that repeats a platform, leaves fields to their defaults, says that a field has no
value and lists the fields of a member. -/
def panels : Value :=
  .record
    [("wire_version", .text "1.0.0-rc.1+07"),
     ("platforms", .list [.text "droid", .record [("ios", .null)], .text "droid"]),
     ("types", .list
      [.record
        [("name", .text "a..Panel"), ("kind", .text "interface"), ("extends", .null),
         ("members", .list
          [.record [("abstract", .null), ("name", .text "open")], .list [.text "close"]])]])]

/-- The platforms are put back once each, and the fields that were left out are given. -/
theorem panels_decode_encode : ∃ w e, Schema.wirefile.decode Value.format panels = .ok w ∧
    Schema.wirefile.normalize Value.format panels = .ok e ∧
    Schema.wirefile.decode Value.format e = .ok w ∧
    Schema.wirefile.normalize Value.format e = .ok e := by
  let w : Wirefile :=
    ⟨⟨1, 0, 0, "rc.1", "07"⟩, some .all, .standard,
      [⟨⟨"a.", "Panel"⟩, .interface, none, [], [⟨"open", none⟩, ⟨"close", none⟩]⟩], []⟩
  have hread : Schema.wirefile.decode Value.format panels = .ok w := by rfl
  have hvalue : Schema.wirefile.normalize Value.format panels = .ok w.encode :=
    map_eq_ok_iff.2 ⟨w, hread, rfl⟩
  obtain ⟨hback, hagain⟩ := decode_encode_of_decode hread
  exact ⟨w, w.encode, hread, hvalue, hback, hagain _ hvalue⟩

end Schema

end PlatformWiring
