import Mathlib.Data.List.Induction
import PluginHost.Proofs.Data.Structures

/-! # Members in the order of their names

Members are put in order one after the other, and a later one takes the place of an earlier one of
its name. So each name occurs once, with the last member that had it. -/

namespace PluginHost

namespace Datum

variable {members : List (String × Datum)}

theorem sortedMembers_concat (members : List (String × Datum)) (m : String × Datum) :
    sortedMembers (members ++ [m]) = Named.insert m.1 m.2 (sortedMembers members) := by
  rw [sortedMembers, List.foldl_append]
  rfl

theorem mem_sortedMembers {m : String × Datum} (h : m ∈ sortedMembers members) :
    m ∈ members := by
  induction members using List.reverseRecOn with
  | nil => exact h
  | append_singleton members last ih =>
      rw [sortedMembers_concat] at h
      rcases Named.mem_insert h with rfl | h
      · exact List.mem_append_right _ (List.mem_singleton_self _)
      · exact List.mem_append_left _ (ih h)

/-- Under each name stands the last member of the name. -/
theorem lookup_sortedMembers (members : List (String × Datum)) (key : String) :
    (sortedMembers members).lookup key = members.reverse.lookup key := by
  induction members using List.reverseRecOn with
  | nil => rfl
  | append_singleton members last ih =>
      rw [sortedMembers_concat, Named.lookup_insert, ih, List.reverse_concat, Named.lookup_cons_ite]

theorem lookup_ne_none_iff {members : List (String × Datum)} {key : String} :
    members.lookup key ≠ none ↔ key ∈ members.map Prod.fst := by
  simp [List.lookup_eq_none_iff]

/-- No name is lost, and none is added. -/
theorem mem_names_sortedMembers (members : List (String × Datum)) (key : String) :
    key ∈ (sortedMembers members).map Prod.fst ↔ key ∈ members.map Prod.fst := by
  rw [← lookup_ne_none_iff, lookup_sortedMembers, lookup_ne_none_iff, List.map_reverse,
    List.mem_reverse]

theorem sorted_sortedMembers (members : List (String × Datum)) :
    Named.Sorted (sortedMembers members) := by
  induction members using List.reverseRecOn with
  | nil => exact .nil
  | append_singleton members last ih =>
      rw [sortedMembers_concat]
      exact ih.insert last.1 last.2

theorem nodup_sortedMembers (members : List (String × Datum)) :
    ((sortedMembers members).map Prod.fst).Nodup :=
  List.pairwise_map.mpr ((sorted_sortedMembers members).imp fun hlt => Std.ne_of_lt hlt)

/-- Members of different names are only put in order. -/
theorem sortedMembers_perm (h : (members.map Prod.fst).Nodup) :
    (sortedMembers members).Perm members := by
  induction members using List.reverseRecOn with
  | nil => exact .refl _
  | append_singleton members last ih =>
      rw [List.map_append, List.nodup_append] at h
      have hsorted := ih h.1
      have hnew : last.1 ∉ (sortedMembers members).map Prod.fst := by
        rw [(hsorted.map Prod.fst).mem_iff]
        exact fun hmem => h.2.2 _ hmem last.1 (by simp) rfl
      rw [sortedMembers_concat]
      exact ((Named.insert_perm hnew).trans (hsorted.cons last)).trans
        (List.perm_append_singleton last members).symm

end Datum

end PluginHost
