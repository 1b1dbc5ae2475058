import PluginHost.Info.PluginInfo
import PluginHost.Proofs.Data.Records
import PluginHost.Proofs.Toml.Documents

/-! # Descriptors in data files

A descriptor is read back from either format as it was. What it leaves out because there is nothing
to say is what a reader assumes of a member that is not given. -/

namespace PluginHost

theorem Toml.Plain.exact {d : Datum} (h : Toml.Plain d) : d.Exact := by
  cases h with
  | text s => exact .text s
  | bool b => exact .bool b
  | texts items =>
      refine .list fun d hd => ?_
      obtain ⟨s, _, rfl⟩ := List.mem_map.mp hd
      exact .text s

namespace Descriptor

/-- The fields of a descriptor, with what is given for each. -/
def fields (x : Descriptor) : List (String × Option Datum) :=
  [("name", some (.text x.name)), ("service", some (.text x.service)),
    ("plugin", x.plugin.map .text), ("program", x.program.map .text),
    ("aliases", if x.aliases.isEmpty then none else some (.list (x.aliases.map .text))),
    ("supports_multiple", some (.bool x.supportsMultiple))]

/-- The names of the fields. -/
def fieldNames : List String :=
  ["name", "service", "plugin", "program", "aliases", "supports_multiple"]

theorem members_eq_present (x : Descriptor) : x.members = present x.fields := by
  obtain ⟨_, _, plugin, program, aliases, _⟩ := x
  cases plugin <;> cases program <;> cases aliases <;> rfl

theorem optional_eq_ok {decode : Tree → Decoded String}
    (hdecode : ∀ s, decode (Datum.text s).toTree = .ok s) {value : Option String} {x : Datum}
    (h : value.map .text = some x) : Decode.optional decode x.toTree = .ok value := by
  cases value with
  | none => cases h
  | some s =>
      cases h
      exact map_eq_ok.mpr ⟨s, hdecode s, rfl⟩

theorem withDefault_optional {found : Decode.Fields} {name : String} {value : Option String}
    {decode : Tree → Decoded String} (hdecode : ∀ s, decode (Datum.text s).toTree = .ok s)
    (h : found.given.lookup name = (value.map .text).map Datum.toTree) :
    found.withDefault name none (Decode.optional decode) = .ok value :=
  Decode.withDefault_of_lookup h (fun _ hx => optional_eq_ok hdecode hx) fun hnone => by
    simpa using hnone

theorem list_aliases (d : Dialect) {aliases : List String} {x : Datum}
    (h : (if aliases.isEmpty then none else some (Datum.list (aliases.map .text))) = some x) :
    Decode.list d (Decode.text d) x.toTree = .ok aliases := by
  split at h
  · cases h
  · cases h
    exact Decode.list_text d aliases

theorem withDefault_aliases (d : Dialect) {found : Decode.Fields} {aliases : List String}
    (h : found.given.lookup "aliases" =
      (if aliases.isEmpty then none else some (Datum.list (aliases.map .text))).map
        Datum.toTree) :
    found.withDefault "aliases" [] (Decode.list d (Decode.text d)) = .ok aliases := by
  refine Decode.withDefault_of_lookup h (fun _ => list_aliases d) fun hnone => ?_
  split at hnone
  next hempty => exact List.isEmpty_iff.mp hempty
  next => cases hnone

/-- A descriptor is decoded from its members, in whatever order, and others beside them. -/
theorem ofTree_members (d : Dialect) {x : Descriptor} {members : List (String × Datum)}
    (h : KnownMembers fieldNames x.members members) :
    ofTree d (Datum.record members).toTree = .ok x := by
  have htext : ∀ s, Decode.text d (Datum.text s).toTree = .ok s := Decode.text_toTree d
  have hpath : ∀ s, Decode.path d (Datum.text s).toTree = .ok s := fun _ => rfl
  rw [members_eq_present] at h
  refine Decode.structure_present_eq_ok x.fields rfl (by decide : fieldNames.Nodup) h ?_
    fun found hgiven => ?_
  · intro rule hrule given hlookup
    simp only [List.mem_cons, List.not_mem_nil, or_false] at hrule
    rcases hrule with rfl | rfl | rfl | rfl | rfl | rfl
    · cases hlookup
      rfl
    · cases hlookup
      rfl
    · exact Decode.test_field (optional_eq_ok htext (Option.some.inj hlookup))
    · exact Decode.test_field (optional_eq_ok hpath (Option.some.inj hlookup))
    · exact Decode.test_field (list_aliases d (Option.some.inj hlookup))
    · cases hlookup
      rfl
  · have hname := Decode.required_of_lookup (hgiven "name" _ rfl) (htext x.name)
    have hservice := Decode.required_of_lookup (hgiven "service" _ rfl) (htext x.service)
    have hplugin := withDefault_optional htext (hgiven "plugin" _ rfl)
    have hprogram := withDefault_optional hpath (hgiven "program" _ rfl)
    have haliases := withDefault_aliases d (hgiven "aliases" _ rfl)
    have hflag : found.withDefault "supports_multiple" false (Decode.bool d) =
        .ok x.supportsMultiple :=
      Decode.withDefault_of_given (hgiven "supports_multiple" _ rfl) rfl
    simp only [hname, hservice, hplugin, hprogram, haliases, hflag]
    rfl

theorem plain_of_field {x : Descriptor} {name : String} {d : Datum}
    (h : (name, some d) ∈ x.fields) : Toml.Plain d := by
  have hoptional {value : Option String} (h : some d = value.map .text) : Toml.Plain d := by
    obtain ⟨s, _, rfl⟩ := Option.map_eq_some_iff.mp h.symm
    exact .text s
  simp only [fields, List.mem_cons, List.not_mem_nil, or_false, Prod.mk.injEq,
    Option.some.injEq] at h
  rcases h with ⟨_, rfl⟩ | ⟨_, rfl⟩ | ⟨_, h⟩ | ⟨_, h⟩ | ⟨_, h⟩ | ⟨_, rfl⟩
  · exact .text _
  · exact .text _
  · exact hoptional h
  · exact hoptional h
  · split at h
    · cases h
    · cases h
      exact .texts x.aliases
  · exact .bool _

theorem plain_of_mem {x : Descriptor} {m : String × Datum} (h : m ∈ x.members) :
    Toml.Plain m.2 :=
  plain_of_field (mem_present.mp (x.members_eq_present ▸ h))

theorem document_members (x : Descriptor) : Toml.Document x.members := by
  have hnames : ∀ name ∈ fieldNames, Toml.PlainName name := by
    decide
  rw [members_eq_present]
  exact Toml.document_present hnames (by decide : fieldNames.Nodup) fun _ _ => plain_of_field

theorem name_mem {x : Descriptor} {m : String × Datum} (h : m ∈ x.members) : m.1 ∈ fieldNames := by
  rw [members_eq_present] at h
  exact (names_present x.fields).subset (List.mem_map_of_mem h)

theorem exact_toDatum (x : Descriptor) : x.toDatum.Exact :=
  .record fun _ hm => (plain_of_mem hm).exact

theorem decode_fileText (x : Descriptor) : Toml.decode ofTree (Toml.text x.members) = .ok x := by
  obtain ⟨read, hread, hperm⟩ := x.document_members.exists_read
  have hmembers : x.members.map (fun m => (m.1, (Toml.nodeOf m.2).datum)) = x.members.map id :=
    List.map_congr_left fun _ hm => Prod.ext rfl (plain_of_mem hm).datum_nodeOf
  rw [hmembers, List.map_id] at hperm
  have hknown := knownMembers_of_perm hperm fun _ hm => name_mem hm
  rw [Toml.decode, hread]
  simp [ofTree_members Toml.dialect hknown, Except.mapError]

theorem readsBack (x : Descriptor) : ReadsBack ofTree x.toDatum x :=
  readsBack_of_exact x.exact_toDatum
    (ofTree_members Json.dialect (.refl fun _ hm => name_mem hm))

end Descriptor

namespace PluginInfo

theorem exists_ofDescriptor {x : Descriptor} (hname : Text.allBlank x.name = false)
    (hservice : Text.allBlank x.service = false) (filename : Option String) :
    ∃ i, ofDescriptor x filename = .ok i ∧ i.descriptor = x ∧ i.filename = filename :=
  ⟨⟨x, filename, hname, hservice⟩, by simp [ofDescriptor, hname, hservice], rfl, rfl⟩

theorem exists_parseError {x : Descriptor}
    (h : Text.allBlank x.name = true ∨ Text.allBlank x.service = true)
    (filename : Option String) :
    ∃ reason, ofDescriptor x filename = .error (.parseError reason) := by
  by_cases hname : Text.allBlank x.name = true
  · exact ⟨_, by simp [ofDescriptor, hname]; rfl⟩
  · have hservice := h.resolve_left hname
    exact ⟨_, by simp [ofDescriptor, hname, hservice]; rfl⟩

/-- The description whose descriptor a data file holds. -/
def ofData (text : String) : Decoded (Except HostError PluginInfo) :=
  (Json.decode Descriptor.ofTree text).map fun x => ofDescriptor x none

theorem parse_fileText (x : Descriptor) (filename : Option String) :
    parse (fileText x) filename = ofDescriptor x filename := by
  rw [parse, fileText, x.decode_fileText]

theorem ofData_text (x : Descriptor) {text : String}
    (h : text ∈ [Json.text x.toDatum, Json.prettyText x.toDatum]) :
    ofData text = .ok (ofDescriptor x none) := by
  obtain ⟨hline, hlines⟩ := x.readsBack
  simp only [List.mem_cons, List.not_mem_nil, or_false] at h
  rcases h with rfl | rfl
  · simp [ofData, hline, Except.map]
  · simp [ofData, hlines, Except.map]

/-- A descriptor with a name and a service makes the same description again, from the text of a
description file as well as from that of a data file. Without one of them it is rejected. -/
theorem descriptor_kept (x : Descriptor) (filename : Option String) :
    (Text.allBlank x.name = false → Text.allBlank x.service = false →
      (∃ i, parse (fileText x) filename = .ok i ∧ i.descriptor = x ∧ i.filename = filename) ∧
      ∀ text ∈ [Json.text x.toDatum, Json.prettyText x.toDatum],
        ∃ i, ofData text = .ok (.ok i) ∧ i.descriptor = x) ∧
    (Text.allBlank x.name = true ∨ Text.allBlank x.service = true →
      (∃ reason, parse (fileText x) filename = .error (.parseError reason)) ∧
      ∀ text ∈ [Json.text x.toDatum, Json.prettyText x.toDatum],
        ∃ reason, ofData text = .ok (.error (.parseError reason))) := by
  refine ⟨fun hname hservice => ⟨?_, fun text htext => ?_⟩,
    fun hblank => ⟨?_, fun text htext => ?_⟩⟩
  · rw [parse_fileText]
    exact exists_ofDescriptor hname hservice filename
  · obtain ⟨i, hi, hdescriptor, _⟩ := exists_ofDescriptor hname hservice none
    exact ⟨i, by rw [ofData_text x htext, hi], hdescriptor⟩
  · rw [parse_fileText]
    exact exists_parseError hblank filename
  · obtain ⟨reason, hreason⟩ := exists_parseError hblank none
    exact ⟨reason, by rw [ofData_text x htext, hreason]⟩

/-- What is given and empty is not what is left out, and a service of blanks is none. -/
theorem descriptor_kept_empty_members :
    let x : Descriptor := ⟨"q\x22\\\n", "s", some "", none, [""], true⟩
    let blank : Descriptor := ⟨"n", " \t\n", none, none, [], false⟩
    ((∃ i, parse (fileText x) none = .ok i ∧ i.descriptor = x ∧ i.filename = none) ∧
      ∀ text ∈ [Json.text x.toDatum, Json.prettyText x.toDatum],
        ∃ i, ofData text = .ok (.ok i) ∧ i.descriptor = x) ∧
    (∃ reason, parse (fileText blank) none = .error (.parseError reason)) ∧
      ∀ text ∈ [Json.text blank.toDatum, Json.prettyText blank.toDatum],
        ∃ reason, ofData text = .ok (.error (.parseError reason)) :=
  ⟨(descriptor_kept _ none).1 (by decide) (by decide),
    (descriptor_kept _ none).2 (.inr (by decide))⟩

end PluginInfo

end PluginHost
