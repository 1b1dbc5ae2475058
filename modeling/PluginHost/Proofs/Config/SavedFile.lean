import PluginHost.Config
import PluginHost.Proofs.Data.Structures
import PluginHost.Proofs.Files.Writing
import PluginHost.Proofs.Toml.Documents

/-! # Configuration files that were saved

A saved configuration is loaded as it was. Settings that were taken out of its file have their
default values then, and what was added under other names does not count. -/

namespace PluginHost.Config

/-! ## What is left of a file -/

/-- The settings of a configuration that are left in its file. -/
structure Kept where
  pluginDirectory : Bool
  infoDirectory : Bool
  checkOwner : Bool

/-- All settings are left. -/
def Kept.all : Kept := ⟨true, true, true⟩

/-- The configuration with the default values of the settings that are not left. -/
def keep (c : Config) (kept : Kept) : Config where
  pluginDirectory := if kept.pluginDirectory then c.pluginDirectory else default.pluginDirectory
  infoDirectory := if kept.infoDirectory then c.infoDirectory else default.infoDirectory
  checkOwner := if kept.checkOwner then c.checkOwner else default.checkOwner

/-- The fields of the table of directories. -/
def leftPaths (c : Config) (kept : Kept) : List (String × Option Datum) :=
  [("plugin_dir", if kept.pluginDirectory then some (.text c.pluginDirectory) else none),
    ("plugin_info_dir", if kept.infoDirectory then some (.text c.infoDirectory) else none)]

/-- The field of the table on loading. -/
def leftLoader (c : Config) (kept : Kept) : List (String × Option Datum) :=
  [("check_owner", if kept.checkOwner then some (.bool c.checkOwner) else none)]

/-- A table whose known fields are those that are left, with unknown members anywhere between them.
It may be missing if none is left. -/
inductive LeftTable (fields : List (String × Option Datum)) : Option Datum → Prop where
  | given {members} (h : KnownMembers (fields.map Prod.fst) (present fields) members) :
      LeftTable fields (some (.record members))
  | missing (h : present fields = []) : LeftTable fields none

/-- The members of a file of which only some settings are left, with unknown members anywhere
between them. -/
def LeftIn (c : Config) (kept : Kept) (members : List (String × Datum)) : Prop :=
  ∃ paths loader, LeftTable (c.leftPaths kept) paths ∧ LeftTable (c.leftLoader kept) loader ∧
    KnownMembers ["paths", "loader"] (present [("paths", paths), ("loader", loader)]) members

/-! ## Decoding -/

/-- A setting that is left is decoded, and one that is not has its default value. -/
theorem withDefault_left {α : Type} {found : Decode.Fields} {name : String} {isLeft : Bool}
    {value default : α} {x : Datum} {decode : Tree → Decoded α}
    (hgiven : found.given.lookup name = (if isLeft then some x else none).map Datum.toTree)
    (h : decode x.toTree = .ok value) :
    found.withDefault name default decode = .ok (if isLeft then value else default) := by
  cases isLeft with
  | false => rw [Decode.Fields.withDefault, hgiven]; rfl
  | true => exact Decode.withDefault_of_given hgiven h

theorem test_left {α : Type} {name : String} {decode : Tree → Decoded α} {isLeft : Bool}
    {value : α} {x given : Datum} (hgiven : (if isLeft then some x else none) = some given)
    (h : decode x.toTree = .ok value) :
    (Decode.field name decode).test given.toTree = .ok () := by
  cases isLeft with
  | false => cases hgiven
  | true =>
      cases hgiven
      exact Decode.test_field h

variable {c : Config} {kept : Kept}

theorem pathsOfTree_left (d : Dialect) {members : List (String × Datum)}
    (h : KnownMembers ((c.leftPaths kept).map Prod.fst) (present (c.leftPaths kept)) members) :
    pathsOfTree d (Datum.record members).toTree =
      .ok ((c.keep kept).pluginDirectory, (c.keep kept).infoDirectory) := by
  have hpath (s : String) : Decode.path d (Datum.text s).toTree = .ok s := rfl
  refine Decode.structure_present_eq_ok (c.leftPaths kept) rfl
    (by decide : ["plugin_dir", "plugin_info_dir"].Nodup) h ?_ fun found hgiven => ?_
  · intro rule hrule given hlookup
    simp only [List.mem_cons, List.not_mem_nil, or_false] at hrule
    rcases hrule with rfl | rfl
    · exact test_left (Option.some.inj hlookup) (hpath _)
    · exact test_left (Option.some.inj hlookup) (hpath _)
  · rw [withDefault_left (hgiven "plugin_dir" _ rfl) (hpath _),
      withDefault_left (hgiven "plugin_info_dir" _ rfl) (hpath _)]
    rfl

theorem loaderOfTree_left (d : Dialect) {members : List (String × Datum)}
    (h : KnownMembers ((c.leftLoader kept).map Prod.fst) (present (c.leftLoader kept)) members) :
    loaderOfTree d (Datum.record members).toTree = .ok (c.keep kept).checkOwner := by
  have hflag (b : Bool) : Decode.bool d (Datum.bool b).toTree = .ok b := rfl
  refine Decode.structure_present_eq_ok (c.leftLoader kept) rfl
    (by decide : ["check_owner"].Nodup) h ?_ fun found hgiven => ?_
  · intro rule hrule given hlookup
    cases List.mem_singleton.mp hrule
    exact test_left (Option.some.inj hlookup) (hflag _)
  · exact withDefault_left (hgiven "check_owner" _ rfl) (hflag _)

/-- A table that is missing has nothing but default values. -/
theorem LeftTable.default_paths (h : LeftTable (c.leftPaths kept) none) :
    ((c.keep kept).pluginDirectory, (c.keep kept).infoDirectory) =
      (default.pluginDirectory, default.infoDirectory) := by
  obtain ⟨plugins, infos, owner⟩ := kept
  cases h with
  | missing h => cases plugins <;> cases infos <;> first | rfl | cases h

theorem LeftTable.default_loader (h : LeftTable (c.leftLoader kept) none) :
    (c.keep kept).checkOwner = default.checkOwner := by
  obtain ⟨plugins, infos, owner⟩ := kept
  cases h with
  | missing h => cases owner <;> first | rfl | cases h

theorem ofTree_left (d : Dialect) {members : List (String × Datum)} (h : c.LeftIn kept members) :
    ofTree d (Datum.record members).toTree = .ok (c.keep kept) := by
  obtain ⟨paths, loader, hpaths, hloader, hknown⟩ := h
  have hpathsGiven (x : Datum) (hx : paths = some x) : pathsOfTree d x.toTree =
      .ok ((c.keep kept).pluginDirectory, (c.keep kept).infoDirectory) := by
    subst hx
    cases hpaths with
    | given h => exact pathsOfTree_left d h
  have hloaderGiven (x : Datum) (hx : loader = some x) : loaderOfTree d x.toTree =
      .ok (c.keep kept).checkOwner := by
    subst hx
    cases hloader with
    | given h => exact loaderOfTree_left d h
  refine Decode.structure_present_eq_ok [("paths", paths), ("loader", loader)] rfl
    (by decide : ["paths", "loader"].Nodup) hknown ?_ fun found hgiven => ?_
  · intro rule hrule given hlookup
    simp only [List.mem_cons, List.not_mem_nil, or_false] at hrule
    rcases hrule with rfl | rfl
    · exact Decode.test_field (hpathsGiven given (Option.some.inj hlookup))
    · exact Decode.test_field (hloaderGiven given (Option.some.inj hlookup))
  · rw [Decode.withDefault_of_lookup (hgiven "paths" _ rfl) hpathsGiven
        (by rintro rfl; exact hpaths.default_paths),
      Decode.withDefault_of_lookup (hgiven "loader" _ rfl) hloaderGiven
        (by rintro rfl; exact hloader.default_loader)]
    rfl

/-- What a text says is what is left of the settings, and else the default. -/
theorem parse_left {members : List (String × Datum)} (h : c.LeftIn kept members) {text : String}
    (hread : Toml.readDocument? text = some (.record members)) :
    parse text = .ok (c.keep kept) := by
  simp [parse, Toml.decode, hread, ofTree_left Toml.dialect h, Except.mapError]

/-! ## Files that were written -/

/-- What stands in a document for a datum that was written to it. -/
def readAs (d : Datum) : Datum :=
  (Toml.nodeOf d).datum

theorem LeftTable.readAs {fields : List (String × Option Datum)} {table : Option Datum}
    (h : LeftTable fields table) (hentry : ∀ d, table = some d → Toml.Entry d) :
    LeftTable fields (table.map Config.readAs) := by
  cases h with
  | missing h => exact .missing h
  | given h =>
      cases hentry _ rfl with
      | plain hplain => cases hplain
      | table hplain hdistinct =>
          obtain ⟨read, hread, hperm⟩ :=
            Toml.exists_table_nodeOf (fun m hm => (hplain m hm).2) hdistinct
          rw [Option.map_some, Config.readAs, hread]
          exact .given (h.of_perm hperm)

/-- A file is read with what is left of the settings in it. -/
theorem LeftIn.exists_read {members : List (String × Datum)} (h : c.LeftIn kept members)
    (hdocument : Toml.Document members) :
    ∃ read, Toml.readDocument? (Toml.text members) = some (.record read) ∧
      c.LeftIn kept read := by
  obtain ⟨read, hread, hperm⟩ := hdocument.exists_read
  obtain ⟨paths, loader, hpaths, hloader, hknown⟩ := h
  have hentry (name : String) (d : Datum)
      (hmem : (name, d) ∈ present [("paths", paths), ("loader", loader)]) : Toml.Entry d :=
    (hdocument.entries _ (hknown.mem hmem)).2
  have hpresent : (present [("paths", paths), ("loader", loader)]).map
      (fun m => (m.1, readAs m.2)) =
      present [("paths", paths.map readAs), ("loader", loader.map readAs)] := by
    cases paths <;> cases loader <;> rfl
  refine ⟨read, hread, paths.map readAs, loader.map readAs, hpaths.readAs fun d hd => ?_,
    hloader.readAs fun d hd => ?_, hpresent ▸ (hknown.map_values readAs).of_perm hperm⟩
  · exact hentry "paths" d (by simp [present, hd])
  · exact hentry "loader" d (by simp [present, hd])

theorem plain_of_left {isLeft : Bool} {x d : Datum}
    (h : some d = if isLeft then some x else none) (hx : Toml.Plain x) : Toml.Plain d := by
  cases isLeft with
  | false => cases h
  | true =>
      cases h
      exact hx

/-- The saved members without the settings that are not left. -/
def leftMembers (c : Config) (kept : Kept) : List (String × Datum) :=
  [("paths", .record (present (c.leftPaths kept))),
    ("loader", .record (present (c.leftLoader kept)))]

theorem leftIn_leftMembers (c : Config) (kept : Kept) : c.LeftIn kept (c.leftMembers kept) :=
  ⟨some _, some _, .given (knownMembers_present _), .given (knownMembers_present _),
    knownMembers_present [("paths", some _), ("loader", some _)]⟩

theorem document_leftMembers (c : Config) (kept : Kept) :
    Toml.Document (c.leftMembers kept) where
  entries m hm := by
    simp only [leftMembers, List.mem_cons, List.not_mem_nil, or_false] at hm
    rcases hm with rfl | rfl
    · have hname : Toml.PlainName "paths" := by decide
      refine ⟨hname, Toml.entry_present ?_ ?_ fun name d hfield => ?_⟩
      · exact (by decide : ∀ name ∈ ["plugin_dir", "plugin_info_dir"], Toml.PlainName name)
      · exact (by decide : ["plugin_dir", "plugin_info_dir"].Nodup)
      · simp only [leftPaths, List.mem_cons, List.not_mem_nil, or_false, Prod.mk.injEq] at hfield
        rcases hfield with ⟨_, h⟩ | ⟨_, h⟩
        · exact plain_of_left h (.text _)
        · exact plain_of_left h (.text _)
    · have hname : Toml.PlainName "loader" := by decide
      refine ⟨hname, Toml.entry_present ?_ ?_ fun name d hfield => ?_⟩
      · exact (by decide : ∀ name ∈ ["check_owner"], Toml.PlainName name)
      · exact (by decide : ["check_owner"].Nodup)
      · simp only [leftLoader, List.mem_cons, List.not_mem_nil, or_false, Prod.mk.injEq] at hfield
        exact plain_of_left hfield.2 (.bool _)
  distinct := (by decide : ["paths", "loader"].Nodup)

theorem parse_fileText (c : Config) : parse c.fileText = .ok c := by
  obtain ⟨read, hread, hleft⟩ :=
    (c.leftIn_leftMembers .all).exists_read (c.document_leftMembers .all)
  exact parse_left hleft hread

/-! ## Loading -/

theorem load_of_readText {fs : FileSystem} {path text : String}
    (h : fs.readText path = some (.ok text)) : load fs path = some (parse text) := by
  rw [load, h, Option.map_some]

theorem exists_configError {fs : FileSystem} {path : String} {e : HostError}
    (h : load fs path = some (.error e)) : ∃ reason, e = .configError reason := by
  obtain ⟨read, hread, hloaded⟩ := Option.map_eq_some_iff.mp h
  cases read with
  | ok text =>
      obtain ⟨reason, _, rfl⟩ := (mapError_eq_error_iff _ _ _).mp hloaded
      exact ⟨_, rfl⟩
  | error fault =>
      cases hloaded
      exact ⟨_, rfl⟩

theorem exists_saved (c : Config) {fs : FileSystem} {path : String} (h : fs.Writable path) :
    ∃ changed, c.save fs path = some (.ok changed) ∧ load changed path = some (.ok c) := by
  obtain ⟨changed, hwritten, hread⟩ := h.exists_written c.fileText
  refine ⟨changed, ?_, ?_⟩
  · rw [save, hwritten]
    rfl
  · rw [load_of_readText hread, parse_fileText]

/-- A configuration that was saved is loaded as it was. From any file that has only some of its
settings left, whatever else stands there, it is loaded with the default values of the others; one
way to such a file is to write these settings, in any order and with plain values under other names
between them. A file that cannot be loaded is a fault of the configuration. -/
theorem saved_settings_loaded (c : Config) :
    (∀ fs path, FileSystem.Writable fs path →
      ∃ changed, c.save fs path = some (.ok changed) ∧ load changed path = some (.ok c)) ∧
    (∀ kept members fs path text, c.LeftIn kept members →
      Toml.readDocument? text = some (.record members) → fs.readText path = some (.ok text) →
      load fs path = some (.ok (c.keep kept))) ∧
    (∀ kept members fs path, c.LeftIn kept members → Toml.Document members →
      fs.readText path = some (.ok (Toml.text members)) →
      load fs path = some (.ok (c.keep kept))) ∧
    ∀ fs path e, load fs path = some (.error e) → ∃ reason, e = .configError reason := by
  refine ⟨fun fs path h => c.exists_saved h, ?_, ?_, fun fs path e => exists_configError⟩
  · intro kept members fs path text h hread htext
    rw [load_of_readText htext, parse_left h hread]
  · intro kept members fs path h hdocument htext
    obtain ⟨read, hread, hleft⟩ := h.exists_read hdocument
    rw [load_of_readText htext, parse_left hleft hread]

/-- One of the settings, and unknown names beside it. -/
def leftovers : List (String × Datum) :=
  [("x", .text ""), ("loader", .record [("x", .bool true), ("check_owner", .bool false)])]

/-- A file with the leftovers and an empty one, which the process may not write. -/
def leftoverFiles : FileSystem :=
  .holding [(["a"], ⟨.file (Toml.text leftovers).toUTF8, 1000, 0, 0o600⟩),
    (["b"], ⟨.file (Toml.text []).toUTF8, 0, 0, 0o444⟩)] ⟨1000, 1000, []⟩

theorem saved_settings_loaded_partial :
    let c : Config := ⟨"/a", "\n\x22", false⟩
    (∃ changed, c.save leftoverFiles "/a" = some (.ok changed) ∧
      load changed "/a" = some (.ok c)) ∧
    load leftoverFiles "/a" =
      some (.ok ⟨default.pluginDirectory, default.infoDirectory, false⟩) ∧
    load leftoverFiles "/b" = some (.ok default) ∧
    ∃ e reason, load leftoverFiles "/c" = some (.error e) ∧ e = .configError reason := by
  intro c
  obtain ⟨hsaved, hgiven, hwritten, hfault⟩ := saved_settings_loaded c
  have hloader : LeftTable (c.leftLoader ⟨false, false, true⟩)
      (some (.record [("x", .bool true), ("check_owner", .bool false)])) :=
    .given (show List.Perm [("check_owner", Datum.bool false)] _ from .refl _)
  have hleft : c.LeftIn ⟨false, false, true⟩ leftovers :=
    ⟨none, _, .missing rfl, hloader, List.Perm.refl [("loader", _)]⟩
  have hnone : c.LeftIn ⟨false, false, false⟩ [] :=
    ⟨none, none, .missing rfl, .missing rfl, List.Perm.refl []⟩
  have hdocument : Toml.Document leftovers := by
    refine ⟨fun m hm => ?_, by decide⟩
    rcases List.mem_pair.mp hm with rfl | rfl
    · exact ⟨by decide, .plain (.text "")⟩
    · refine ⟨by decide, .table (fun m hm => ?_) (by decide)⟩
      rcases List.mem_pair.mp hm with rfl | rfl <;> exact ⟨by decide, .bool _⟩
  obtain ⟨read, hread, hleftRead⟩ := hleft.exists_read hdocument
  have hdestination : leftoverFiles.destination "/a" = .ok (.present ["a"]) := rfl
  have hwritable : leftoverFiles.Writable "/a" := .file hdestination rfl rfl rfl
  have hlost : load leftoverFiles "/c" = some (.error _) := rfl
  obtain ⟨reason, hreason⟩ := hfault leftoverFiles "/c" _ hlost
  exact ⟨hsaved leftoverFiles "/a" hwritable,
    hgiven _ read leftoverFiles "/a" _ hleftRead hread (FileSystem.readText_of_entry rfl rfl),
    hwritten _ [] leftoverFiles "/b" hnone ⟨List.forall_mem_nil _, .nil⟩
      (FileSystem.readText_of_entry rfl rfl),
    _, reason, hlost, hreason⟩

end PluginHost.Config
