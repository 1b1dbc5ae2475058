import Mathlib.Data.List.Nodup
import Mathlib.Tactic.SplitIfs
import PluginHost.Files.Route

/-! # Entries of a file system

At every place stands what was put there last, and a directory holds the names of what stands right
below it. -/

namespace PluginHost.FileSystem

variable {fs : FileSystem}

/-! ## What stands at a place -/

theorem at?_eq_some_iff (h : fs.Distinct) {place : Place} {e : FileEntry} (hbelow : place ≠ []) :
    fs.at? place = some e ↔ (place, e) ∈ fs.entries := by
  have hat : fs.at? place = fs.entries.lookup place := by simp [at?, hbelow]
  rw [hat, List.lookup_eq_some_iff]
  constructor
  · rintro ⟨before, after, heq, _⟩
    simp [heq]
  · intro hmem
    obtain ⟨before, after, heq⟩ := List.append_of_mem hmem
    refine ⟨before, after, heq, fun other hother => ?_⟩
    rw [Distinct, heq, List.map_append, List.nodup_append] at h
    have hne := h.2.2 other.1 (List.mem_map_of_mem hother) place (by simp)
    simpa using Ne.symm hne

/-- Where nothing stands twice, the order of a listing does not count. -/
theorem changedOnly_of_perm (h : fs.Distinct) {entries : List (Place × FileEntry)}
    (hperm : entries.Perm fs.entries) (directory : Place) :
    ChangedOnly directory [] fs { fs with entries := entries } where
  workingDirectory := rfl
  process := rfl
  elsewhere place _ := by
    have hchanged : Distinct { fs with entries := entries } :=
      (hperm.map Prod.fst).nodup_iff.mpr h
    by_cases hroot : place = []
    · simp [at?, hroot]
    · ext e
      rw [at?_eq_some_iff h hroot, at?_eq_some_iff hchanged hroot, hperm.mem_iff]

theorem put_eq (fs : FileSystem) (place : Place) (e : FileEntry) :
    fs.put place e = { fs with entries := (fs.put place e).entries } := by
  unfold put
  split_ifs <;> rfl

theorem lookup_map_put (entries : List (Place × FileEntry)) (place q : Place) (e : FileEntry) :
    (entries.map fun old => if old.1 = place then (place, e) else old).lookup q =
      if q = place then (entries.lookup place).map fun _ => e else entries.lookup q := by
  induction entries with
  | nil => simp
  | cons old rest ih =>
      obtain ⟨other, was⟩ := old
      by_cases hother : other = place
      · subst hother
        by_cases hq : q = other
        · simp [hq]
        · have hb : (q == other) = false := by simpa using hq
          simpa [List.lookup_cons, hq, hb] using ih
      · by_cases hq : q = place
        · subst hq
          have hb : (q == other) = false := by simpa using Ne.symm hother
          simpa [List.lookup_cons, hother, hb] using ih
        · simp only [List.map_cons, if_neg hother, List.lookup_cons, ih, if_neg hq]

theorem at?_put {place : Place} (hbelow : place ≠ []) (e : FileEntry) (q : Place) :
    (fs.put place e).at? q = if q = place then some e else fs.at? q := by
  by_cases hroot : q = []
  · rw [put_eq]
    simp [at?, hroot, Ne.symm hbelow]
  · simp only [at?, put, List.isEmpty_iff, hbelow, hroot, if_false]
    split_ifs with hthere hq hq
    · obtain ⟨was, hwas⟩ := Option.isSome_iff_exists.mp hthere
      simp [lookup_map_put, hq, hwas]
    · simp [lookup_map_put, hq]
    · have hnone := Option.not_isSome_iff_eq_none.mp hthere
      simp [List.lookup_append, hq, hnone]
    · have hb : (q == place) = false := by simpa using hq
      simp [List.lookup_append, List.lookup_cons, hb]

theorem distinct_put (h : fs.Distinct) (place : Place) (e : FileEntry) :
    (fs.put place e).Distinct := by
  unfold put
  split_ifs with hroot hthere
  · exact h
  · have hplaces : (fs.entries.map fun old => if old.1 = place then (place, e) else old).map
        Prod.fst = fs.entries.map Prod.fst := by
      rw [List.map_map]
      refine List.map_congr_left fun old _ => ?_
      by_cases hold : old.1 = place <;> simp [hold]
    rw [Distinct, hplaces]
    exact h
  · have habsent : place ∉ fs.entries.map Prod.fst := by
      intro hmem
      obtain ⟨old, hold, rfl⟩ := List.mem_map.mp hmem
      exact hthere (List.lookup_isSome_iff.mpr ⟨old, hold, by simp⟩)
    rw [Distinct, List.map_append, List.nodup_append]
    refine ⟨h, by simp, fun q hq other hother heq => habsent ?_⟩
    simp only [List.map_cons, List.map_nil, List.mem_singleton] at hother
    rwa [← hother, ← heq]

/-- What is put under a name in a directory changes nothing else. -/
theorem changedOnly_put (directory : Place) (name : String) (e : FileEntry) :
    ChangedOnly directory [name] fs (fs.put (directory ++ [name]) e) where
  workingDirectory := by rw [put_eq]
  process := by rw [put_eq]
  elsewhere q havoids := by
    have hne : q ≠ directory ++ [name] := by
      rintro rfl
      exact havoids name (by simp) (List.prefix_refl _)
    rw [at?_put (by simp), if_neg hne]

/-! ## What a directory holds -/

theorem namesIn_eq (directory : Place) :
    fs.namesIn directory = (fs.entries.map Prod.fst).filterMap fun place =>
      match place.getLast? with
      | some name => if place.dropLast = directory then some name else none
      | none => none := by
  rw [namesIn, List.filterMap_map]
  rfl

theorem name_eq_some_iff {directory place : Place} {name : String} :
    (match place.getLast? with
      | some last => if place.dropLast = directory then some last else none
      | none => none) = some name ↔ place = directory ++ [name] := by
  rcases place.eq_nil_or_concat with rfl | ⟨above, last, rfl⟩
  · simp
  · simp

theorem mem_namesIn {directory : Place} {name : String} :
    name ∈ fs.namesIn directory ↔ (fs.at? (directory ++ [name])).isSome := by
  have hat : fs.at? (directory ++ [name]) = fs.entries.lookup (directory ++ [name]) := by
    simp [at?]
  rw [hat, List.lookup_isSome_iff, namesIn_eq, List.mem_filterMap]
  simp [name_eq_some_iff]

theorem nodup_namesIn (h : fs.Distinct) (directory : Place) : (fs.namesIn directory).Nodup := by
  rw [namesIn_eq]
  refine List.Nodup.filterMap (fun place other name hplace hother => ?_) h
  exact (name_eq_some_iff.mp hplace).trans (name_eq_some_iff.mp hother).symm

end PluginHost.FileSystem
