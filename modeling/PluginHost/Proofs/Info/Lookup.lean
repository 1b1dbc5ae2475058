import Mathlib.Data.List.Nodup
import PluginHost.Proofs.Info.Additions

/-! # Looking descriptions up

In a catalog a name or a service stands for one description at most, however the catalog came about.
So a description is found by its name and by its service, and an alias leads to the first one only
where no service is in its way. -/

namespace PluginHost

theorem Text.allBlank_eq_false_iff {s : String} :
    allBlank s = false ↔ ∃ x ∈ s.toList, isBlank x = false := by
  simp [allBlank]

namespace Catalog

/-- The catalog after an attempt to add a description. -/
def afterAdd (c : Catalog) (r : Record) : Catalog :=
  match c.add r with
  | .ok grown => grown
  | .error _ => c

/-- How a catalog comes about: it is empty or read from a directory, and then descriptions are added
or turned away. The list holds what was in it at first and then everything that was tried. -/
inductive Built : List Record → Catalog → Prop where
  | empty : Built [] Catalog.empty
  | scanned {fs next directory c} (h : scan fs next directory = some (.ok c)) : Built c.records c
  | tried {attempts c} (h : Built attempts c) (r : Record) :
      Built (attempts ++ [r]) (c.afterAdd r)

variable {c : Catalog} {r : Record}

/-! ## Attempts -/

theorem add_eq_error_iff :
    (∃ e, c.add r = .error e) ↔ ∃ s ∈ c.records, s.info.Shares r.info := by
  rcases c.add_cases r with ⟨s, hs, hclash, herror⟩ | ⟨hfree, grown, hok, _⟩
  · exact ⟨fun _ => ⟨s, hs, PluginInfo.clashes_iff.mp hclash⟩, fun _ => ⟨_, herror⟩⟩
  · constructor
    · rintro ⟨e, he⟩
      cases hok.symm.trans he
    · rintro ⟨s, hs, hshared⟩
      cases (hfree s hs).symm.trans (PluginInfo.clashes_iff.mpr hshared)

theorem afterAdd_of_error {e : HostError} (h : c.add r = .error e) : c.afterAdd r = c := by
  simp only [afterAdd, h]

theorem records_afterAdd (c : Catalog) (r : Record) :
    (c.afterAdd r = c ∧ ∃ s ∈ c.records, s.info.Shares r.info) ∨
      (c.afterAdd r).records = c.records ++ [r] := by
  rcases c.add_cases r with ⟨s, hs, hclash, herror⟩ | ⟨_, grown, hok, hgrown⟩
  · exact .inl ⟨afterAdd_of_error herror, s, hs, PluginInfo.clashes_iff.mp hclash⟩
  · exact .inr (by simp only [afterAdd, hok, hgrown])

theorem Built.sublist {attempts : List Record} (h : Built attempts c) :
    c.records.Sublist attempts := by
  induction h with
  | empty => exact .slnil
  | scanned _ => exact List.Sublist.refl _
  | @tried attempts c _ r ih =>
      rcases c.records_afterAdd r with ⟨hsame, _⟩ | hgrown
      · rw [hsame]
        exact ih.trans (List.sublist_append_left _ _)
      · rw [hgrown]
        exact ih.append (List.Sublist.refl [r])

/-- Whatever is missing was turned away for something that is there. -/
theorem Built.mem_or_shares {attempts : List Record} (h : Built attempts c) {r : Record}
    (hr : r ∈ attempts) : r ∈ c.records ∨ ∃ s ∈ c.records, s.info.Shares r.info := by
  induction h with
  | empty => cases hr
  | scanned _ => exact .inl hr
  | @tried attempts c _ last ih =>
      rcases c.records_afterAdd last with ⟨hsame, hturned⟩ | hgrown
      · rw [hsame]
        rcases List.mem_append.mp hr with hearlier | hlast
        · exact ih hearlier
        · cases List.mem_singleton.mp hlast
          exact .inr hturned
      · rw [hgrown]
        rcases List.mem_append.mp hr with hearlier | hlast
        · rcases ih hearlier with hkept | ⟨s, hs, hshared⟩
          · exact .inl (List.mem_append_left _ hkept)
          · exact .inr ⟨s, List.mem_append_left _ hs, hshared⟩
        · exact .inl (List.mem_append_right _ hlast)

/-! ## Names and services -/

theorem nodup_names (c : Catalog) : (c.records.map fun r => r.info.name).Nodup :=
  List.pairwise_map.mpr (c.distinct.imp fun hfree hsame => by
    simp [PluginInfo.clashes, hsame] at hfree)

theorem nodup_services (c : Catalog) : (c.records.map fun r => r.info.service).Nodup :=
  List.pairwise_map.mpr (c.distinct.imp fun hfree hsame => by
    simp [PluginInfo.clashes, hsame] at hfree)

/-! ## Finding -/

/-- What is distinct of the records leads to the one record that has it. -/
theorem find?_key_eq_some_iff {key : Record → String} {records : List Record}
    (h : (records.map key).Nodup) {k : String} :
    records.find? (fun s => key s == k) = some r ↔ r ∈ records ∧ key r = k := by
  constructor
  · intro hfound
    exact ⟨List.mem_of_find?_eq_some hfound, by simpa using List.find?_some hfound⟩
  · rintro ⟨hr, hk⟩
    cases hfound : records.find? fun s => key s == k with
    | none => exact absurd hk (by simpa using List.find?_eq_none.mp hfound r hr)
    | some s =>
        have hs : key s = k := by simpa using List.find?_some hfound
        have hmem := List.mem_of_find?_eq_some hfound
        rw [List.inj_on_of_nodup_map h hmem hr (hs.trans hk.symm)]

theorem findByName?_eq_some_iff {name : String} :
    c.findByName? name = some r ↔ r ∈ c.records ∧ r.info.name = name :=
  find?_key_eq_some_iff c.nodup_names

theorem findByService?_of_service (hr : r ∈ c.records) :
    c.findByService? r.info.service = some r := by
  have hfound : (c.records.find? fun s => s.info.service == r.info.service) = some r :=
    (find?_key_eq_some_iff c.nodup_services).mpr ⟨hr, rfl⟩
  simp only [findByService?, hfound]
  rfl

theorem find?_service_eq_none {serviceType : String}
    (h : ∀ s ∈ c.records, s.info.service ≠ serviceType) :
    (c.records.find? fun s => s.info.service == serviceType) = none := by
  simpa using h

theorem findByService?_of_alias {serviceType : String} {before after : List Record}
    (hrecords : c.records = before ++ r :: after)
    (hservice : ∀ s ∈ c.records, s.info.service ≠ serviceType)
    (halias : serviceType ∈ r.info.aliases)
    (hfirst : ∀ s ∈ before, serviceType ∉ s.info.aliases) :
    c.findByService? serviceType = some r := by
  have hsupports : (c.records.find? fun s => s.info.supports serviceType) = some r := by
    rw [List.find?_eq_some_iff_append]
    refine ⟨by simp [PluginInfo.supports, halias], before, after, hrecords, fun s hs => ?_⟩
    have hother := hservice s (hrecords ▸ List.mem_append_left _ hs)
    simp [PluginInfo.supports, hother, hfirst s hs]
  simp only [findByService?, find?_service_eq_none hservice, hsupports]
  rfl

theorem findByService?_eq_none_iff {serviceType : String} :
    c.findByService? serviceType = none ↔
      ∀ s ∈ c.records, s.info.supports serviceType = false := by
  have hboth : c.findByService? serviceType = none ↔
      (c.records.find? fun s => s.info.service == serviceType) = none ∧
        (c.records.find? fun s => s.info.supports serviceType) = none := by
    simp [findByService?, Option.orElse_eq_or]
  have hservice : (∀ s ∈ c.records, s.info.supports serviceType = false) →
      ∀ s ∈ c.records, s.info.service ≠ serviceType := by
    intro hnone s hs hsame
    simpa [PluginInfo.supports, hsame] using hnone s hs
  rw [hboth, List.find?_eq_none, List.find?_eq_none]
  constructor
  · rintro ⟨_, hnone⟩ s hs
    simpa using hnone s hs
  · intro hnone
    exact ⟨by simpa using hservice hnone, by simpa using hnone⟩

/-- What can be relied on in a catalog. -/
structure WellKept (attempts : List Record) (c : Catalog) : Prop where
  /-- The descriptions stand in the order in which they were added. -/
  inOrder : c.records.Sublist attempts
  missing : ∀ r ∈ attempts, r ∈ c.records ∨ ∃ s ∈ c.records, s.info.Shares r.info
  named : ∀ r ∈ c.records, ∃ x ∈ r.info.name.toList, Text.isBlank x = false
  served : ∀ r ∈ c.records, ∃ x ∈ r.info.service.toList, Text.isBlank x = false
  names : (c.records.map fun r => r.info.name).Nodup
  services : (c.records.map fun r => r.info.service).Nodup
  turnedAway : ∀ r, (∃ e, c.add r = .error e) ↔ ∃ s ∈ c.records, s.info.Shares r.info
  unchanged : ∀ r e, c.add r = .error e → c.afterAdd r = c
  added : ∀ r grown, c.add r = .ok grown →
    c.afterAdd r = grown ∧ grown.records = c.records ++ [r]
  byName : ∀ name r, c.findByName? name = some r ↔ r ∈ c.records ∧ r.info.name = name
  byService : ∀ r ∈ c.records, c.findByService? r.info.service = some r
  /-- An alias leads to the description that was added first, unless it is a service itself. -/
  byAlias : ∀ serviceType before r after, c.records = before ++ r :: after →
    (∀ s ∈ c.records, s.info.service ≠ serviceType) → serviceType ∈ r.info.aliases →
    (∀ s ∈ before, serviceType ∉ s.info.aliases) → c.findByService? serviceType = some r
  unknown : ∀ serviceType, c.findByService? serviceType = none ↔
    ∀ r ∈ c.records, r.info.supports serviceType = false

/-- However a catalog came about, names and services lead to single descriptions, and lookups find
what is there. -/
theorem wellKept_of_built {attempts : List Record} (h : Built attempts c) :
    WellKept attempts c where
  inOrder := h.sublist
  missing _ := h.mem_or_shares
  named r _ := Text.allBlank_eq_false_iff.mp r.info.named
  served r _ := Text.allBlank_eq_false_iff.mp r.info.served
  names := c.nodup_names
  services := c.nodup_services
  turnedAway _ := add_eq_error_iff
  unchanged _ _ := afterAdd_of_error
  added r grown hok := ⟨by simp only [afterAdd, hok], records_add hok⟩
  byName _ _ := findByName?_eq_some_iff
  byService _ := findByService?_of_service
  byAlias _ _ _ _ := findByService?_of_alias
  unknown _ := findByService?_eq_none_iff

/-- A description with these aliases. -/
def aliased (id : Nat) (name service : String) (aliases : List String)
    (named : Text.allBlank name = false) (served : Text.allBlank service = false) : Record :=
  ⟨id, ⟨⟨name, service, none, none, aliases, false⟩, none, named, served⟩⟩

/-- The second service is an alias of the first description. -/
def vpn : Record := aliased 0 "vpn" "s" ["t", "u"] (by decide) (by decide)

def web : Record := aliased 1 "web" "t" ["u", "v"] (by decide) (by decide)

theorem wellKept_of_built_vpn_web :
    (((empty.afterAdd vpn).afterAdd web).afterAdd vpn).findByService? "t" = some web ∧
      (((empty.afterAdd vpn).afterAdd web).afterAdd vpn).findByService? "u" = some vpn := by
  have hkept := wellKept_of_built (((Built.empty.tried vpn).tried web).tried vpn)
  have hrecords : (((empty.afterAdd vpn).afterAdd web).afterAdd vpn).records =
      [] ++ vpn :: [web] := by
    decide +kernel
  refine ⟨hkept.byService web (by simp [hrecords]), hkept.byAlias "u" _ _ _ hrecords ?_ ?_ ?_⟩
  · rw [hrecords]
    decide +kernel
  · decide +kernel
  · exact nofun

end Catalog

end PluginHost
