import PluginHost.Info.Catalog

/-! # Adding descriptions

A description is added at the end of a catalog unless it clashes with one that is there. -/

namespace PluginHost

/-- Two descriptions have the name or the service in common. -/
def PluginInfo.Shares (i j : PluginInfo) : Prop :=
  i.name = j.name ∨ i.service = j.service

theorem PluginInfo.clashes_iff {i j : PluginInfo} : i.clashes j = true ↔ i.Shares j := by
  simp [PluginInfo.clashes, PluginInfo.Shares]

namespace Catalog

variable {c grown : Catalog} {r : Record}

theorem add_of_clash {s : Record}
    (h : c.records.find? (fun s => s.info.clashes r.info) = some s) :
    c.add r = .error (alreadyRegistered r.info s.info) := by
  unfold add
  split
  next t ht =>
    rw [h] at ht
    cases ht
    rfl
  next ht => cases h.symm.trans ht

theorem add_of_free (h : ∀ s ∈ c.records, s.info.clashes r.info = false) :
    ∃ grown, c.add r = .ok grown ∧ grown.records = c.records ++ [r] := by
  unfold add
  split
  next s hs =>
    have hclash := List.find?_some hs
    rw [h s (List.mem_of_find?_eq_some hs)] at hclash
    cases hclash
  next => exact ⟨_, rfl, rfl⟩

/-- A description is either turned away for the first one that it clashes with, or added. -/
theorem add_cases (c : Catalog) (r : Record) :
    (∃ s ∈ c.records, s.info.clashes r.info = true ∧
      c.add r = .error (alreadyRegistered r.info s.info)) ∨
    (∀ s ∈ c.records, s.info.clashes r.info = false) ∧
      ∃ grown, c.add r = .ok grown ∧ grown.records = c.records ++ [r] := by
  cases hfound : c.records.find? fun s => s.info.clashes r.info with
  | some s =>
      have hclash : s.info.clashes r.info = true := by simpa using List.find?_some hfound
      exact .inl ⟨s, List.mem_of_find?_eq_some hfound, hclash, add_of_clash hfound⟩
  | none =>
      have hfree : ∀ s ∈ c.records, s.info.clashes r.info = false := by
        simpa using List.find?_eq_none.mp hfound
      exact .inr ⟨hfree, add_of_free hfree⟩

theorem records_add (h : c.add r = .ok grown) : grown.records = c.records ++ [r] := by
  rcases c.add_cases r with ⟨s, _, _, herror⟩ | ⟨_, added, hok, hrecords⟩
  · cases h.symm.trans herror
  · cases h.symm.trans hok
    exact hrecords

/-- Of several descriptions the added ones are numbered without gaps. -/
theorem records_addUsable (c : Catalog) (next : Nat) (infos : List PluginInfo) :
    ∃ added, (c.addUsable next infos).records = c.records ++ added ∧
      added.map Record.id = List.range' next added.length := by
  induction infos generalizing c next with
  | nil => exact ⟨[], by simp [addUsable]⟩
  | cons i rest ih =>
      rcases c.add_cases ⟨next, i⟩ with ⟨s, _, _, herror⟩ | ⟨_, grown, hok, hrecords⟩
      · simpa only [addUsable, herror] using ih c next
      · obtain ⟨added, hadded, hids⟩ := ih grown (next + 1)
        refine ⟨⟨next, i⟩ :: added, ?_, ?_⟩
        · simp [addUsable, hok, hadded, hrecords]
        · simp [hids, List.range'_succ]

theorem ids_scan {fs : FileSystem} {next : Nat} {directory : String}
    (h : scan fs next directory = some (.ok c)) :
    c.records.map Record.id = List.range' next c.records.length := by
  unfold scan at h
  split at h
  next names _ =>
    obtain ⟨infos, _, hc⟩ := Option.map_eq_some_iff.mp h
    cases hc
    obtain ⟨added, hadded, hids⟩ := empty.records_addUsable next infos
    rw [hadded]
    exact hids
  next =>
    cases h
    rfl
  next => cases h

end Catalog

end PluginHost
