import PluginHost.Config
import PluginHost.Proofs.Data.Structures

/-! # What a configuration file says about owners

A setting that is decoded is the one that the document gives, and the default one only if the
document gives none. So owners go unchecked only where a document says so. -/

namespace PluginHost

/-- What a configuration file says about checking owners. -/
def Config.saidOwnerCheck? (document : Datum) : Option Datum :=
  (document.field? ["paths", "loader"] "loader").bind fun loader =>
    loader.field? ["check_owner"] "check_owner"

namespace Config

theorem loaderOfTree_eq_false {d : Dialect} {loader : Datum} {flag : Bool}
    (h : loaderOfTree d loader.toTree = .ok flag) :
    flag = false ↔ loader.field? ["check_owner"] "check_owner" = some (.bool false) := by
  obtain ⟨fields, hfields, hflag⟩ := bind_eq_ok.mp h
  have hgiven : fields.given.lookup "check_owner" =
      (loader.field? ["check_owner"] "check_owner").map Datum.toTree :=
    Decode.lookup_structureFields hfields (by simp [Decode.field])
  rcases Decode.withDefault_eq_ok hgiven hflag with ⟨x, hx, hbool⟩ | ⟨hnone, rfl⟩
  · rw [hx, Decode.bool_eq_ok.mp hbool]
    simp
  · rw [hnone]
    simp [default]

/-- Owners go unchecked if and only if the document says so. -/
theorem ofTree_checkOwner {d : Dialect} {document : Datum} {c : Config}
    (h : ofTree d document.toTree = .ok c) :
    c.checkOwner = false ↔ saidOwnerCheck? document = some (.bool false) := by
  obtain ⟨fields, hfields, hrest⟩ := bind_eq_ok.mp h
  obtain ⟨⟨plugins, infos⟩, _, hrest⟩ := bind_eq_ok.mp hrest
  obtain ⟨flag, hflag, hconfig⟩ := bind_eq_ok.mp hrest
  cases hconfig
  have hgiven : fields.given.lookup "loader" =
      (document.field? ["paths", "loader"] "loader").map Datum.toTree :=
    Decode.lookup_structureFields hfields (by simp [Decode.field])
  unfold saidOwnerCheck?
  rcases Decode.withDefault_eq_ok hgiven hflag with ⟨loader, hloader, hdecoded⟩ | ⟨hnone, rfl⟩
  · rw [hloader]
    exact loaderOfTree_eq_false hdecoded
  · rw [hnone]
    simp [default]

theorem parse_checkOwner {text : String} {c : Config} (h : parse text = .ok c) :
    ∃ document, Toml.readDocument? text = some document ∧
      (c.checkOwner = false ↔ saidOwnerCheck? document = some (.bool false)) := by
  unfold parse Toml.decode at h
  cases hread : Toml.readDocument? text with
  | none =>
      rw [hread] at h
      cases h
  | some document =>
      rw [hread] at h
      refine ⟨document, rfl, ?_⟩
      cases hdecoded : ofTree Toml.dialect document.toTree with
      | error e =>
          simp only [hdecoded] at h
          cases h
      | ok decoded =>
          simp only [hdecoded] at h
          cases h
          exact ofTree_checkOwner hdecoded

end Config

end PluginHost
