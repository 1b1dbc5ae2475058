import PluginHost.Connection
import PluginHost.Proofs.Call.ServiceRecords
import PluginHost.Proofs.Json.Writing

/-! # Records in data files

Nothing that a plugin or a person put into a record is lost in its text. A connection is read back
as it was: its identifier from the grouped digits, and its maps from their entries, which stand in
the order of their keys. -/

namespace PluginHost

namespace Uuid

theorem digit?_digitChar (d : Fin 16) : digit? (digitChar d) = some d := by
  revert d
  decide

theorem length_group {cs : List Char} (h : cs.length = 32) : (group cs).length = 36 := by
  simp [group, h]

theorem ungroup?_group {cs : List Char} (h : cs.length = 32) : ungroup? (group cs) = some cs := by
  have hbare : (group cs).take 8 ++ ((group cs).drop 9).take 4 ++ ((group cs).drop 14).take 4 ++
      ((group cs).drop 19).take 4 ++ (group cs).drop 24 = cs := by
    have hpart (start count : Nat) : (cs.drop start).take count ++ cs.drop (start + count) =
        cs.drop start := by
      rw [← List.drop_drop, List.take_append_drop]
    simp [group, List.drop_append, List.drop_take, h, hpart 16 4, hpart 12 4,
      hpart 8 4]
  simp only [ungroup?, hbare, if_true]

theorem ofText?_text (u : Uuid) : ofText? u.text = some u := by
  have hlength : (u.digits.map digitChar).length = 32 := by rw [List.length_map, u.count]
  have hdigits : (u.digits.map digitChar).mapM digit? = some u.digits := by
    induction u.digits with
    | nil => rfl
    | cons d rest ih => simp [digit?_digitChar, ih]
  simp only [ofText?, text, String.toList_ofList, length_group hlength, ungroup?_group hlength]
  simp [ofDigits?, hdigits, u.count]

end Uuid

namespace TextMap

theorem entries_foldl_insert (m : TextMap) {entries : List (String × String)}
    (h : Named.Sorted (m.entries ++ entries)) :
    (entries.foldl (fun m e => m.insert e.1 e.2) m).entries = m.entries ++ entries := by
  induction entries generalizing m with
  | nil => simp
  | cons e rest ih =>
      have hlast : ∀ x ∈ m.entries, x.1 < e.1 := fun x hx =>
        (List.pairwise_append.mp h).2.2 x hx e (List.mem_cons_self ..)
      have hput : (m.insert e.1 e.2).entries = m.entries ++ [e] :=
        Named.insert_eq_append hlast e.2
      rw [List.foldl_cons, ih, hput, List.append_assoc, List.singleton_append]
      rw [hput, List.append_assoc]
      exact h

/-- A map is made again of its entries. -/
theorem ofList_entries (m : TextMap) : ofList m.entries = m :=
  TextMap.ext (entries_foldl_insert empty m.sorted)

theorem members_text (d : Dialect) (entries : List (String × String)) :
    Decode.members (Decode.text d)
      (Datum.toMembers (entries.map fun (key, value) => (key, .text value))) = .ok entries := by
  induction entries with
  | nil => rfl
  | cons e rest ih =>
      simp [Datum.toMembers, Decode.members, Decode.text_toTree, ih, bind, Except.bind, pure,
        Except.pure]

theorem ofTree_toDatum (d : Dialect) (m : TextMap) : ofTree d m.toDatum.toTree = .ok m := by
  have hentries : Decode.entries d (Decode.text d) m.toDatum.toTree = .ok m.entries :=
    bind_eq_ok.mpr ⟨_, members_text d m.entries, rfl⟩
  exact map_eq_ok.mpr ⟨_, hentries, ofList_entries m⟩

theorem exact_toDatum (m : TextMap) : m.toDatum.Exact := by
  refine .record fun e he => ?_
  obtain ⟨_, _, rfl⟩ := List.mem_map.mp he
  exact .text _

end TextMap

theorem Uuid.ofTree_toDatum (d : Dialect) (u : Uuid) :
    Uuid.ofTree d (Datum.text u.text).toTree = .ok u := by
  simp [Uuid.ofTree, Datum.toTree, Decode.textAs, Uuid.ofText?_text, bind, Except.bind, pure,
    Except.pure]

namespace Connection

theorem ofTree_toDatum (d : Dialect) (c : Connection) : ofTree d c.toDatum.toTree = .ok c := by
  have huuid := Uuid.ofTree_toDatum d c.uuid
  have hdata := TextMap.ofTree_toDatum d c.data
  have hsecrets := TextMap.ofTree_toDatum d c.secrets
  refine Decode.structure_eq_ok (rfl : _ = ["uuid", "id", "service_type", "data", "secrets"])
    (by decide) (.refl _) (.refl (by simp)) ?_ fun fields hgiven => ?_
  · intro rule hrule x hx
    simp only [List.mem_cons, List.not_mem_nil, or_false] at hrule
    rcases hrule with rfl | rfl | rfl | rfl | rfl <;> cases hx
    · exact Decode.test_field huuid
    · rfl
    · rfl
    · exact Decode.test_field hdata
    · exact Decode.test_field hsecrets
  · have hid := Decode.required_of_lookup (hgiven "id" (by decide)) (Decode.text_toTree d _)
    have htype := Decode.required_of_lookup (hgiven "service_type" (by decide))
      (Decode.text_toTree d _)
    have hidentifier := Decode.required_of_lookup (hgiven "uuid" (by decide)) huuid
    have hitems : fields.withDefault "data" ∅ (TextMap.ofTree d) = .ok c.data :=
      Decode.withDefault_of_given (hgiven "data" (by decide)) hdata
    have hhidden : fields.withDefault "secrets" ∅ (TextMap.ofTree d) = .ok c.secrets :=
      Decode.withDefault_of_given (hgiven "secrets" (by decide)) hsecrets
    simp only [hid, htype, hidentifier, hitems, hhidden]
    rfl

theorem exact_toDatum (c : Connection) : c.toDatum.Exact := by
  refine .record fun m hm => ?_
  simp only [List.mem_cons, List.not_mem_nil, or_false] at hm
  rcases hm with rfl | rfl | rfl | rfl | rfl
  · exact .text _
  · exact .text _
  · exact .text _
  · exact c.data.exact_toDatum
  · exact c.secrets.exact_toDatum

/-! ## Items that are set -/

theorem dataItem?_setDataItem (c : Connection) (key value other : String) :
    (c.setDataItem key value).dataItem? other =
      if other = key then some value else c.dataItem? other :=
  Named.lookup_insert key value c.data.entries other

/-- The connection with items set, one after the other. -/
def withItems (c : Connection) (items : List (String × String)) : Connection :=
  items.foldl (fun c item => c.setDataItem item.1 item.2) c

/-- Of several values that were set for an item the last one counts. -/
theorem dataItem?_withItems (c : Connection) (items : List (String × String)) (key : String) :
    (c.withItems items).dataItem? key = (items.reverse.lookup key).or (c.dataItem? key) := by
  induction items generalizing c with
  | nil => rfl
  | cons item rest ih =>
      rw [withItems, List.foldl_cons, ← withItems, ih, dataItem?_setDataItem, List.reverse_cons,
        List.lookup_append, Option.or_assoc, Named.lookup_cons_ite]
      split <;> rfl

/-- Only the data is touched. -/
theorem withItems_eq (c : Connection) (items : List (String × String)) :
    c.withItems items = { c with data := (c.withItems items).data } := by
  induction items generalizing c with
  | nil => rfl
  | cons item rest ih => exact ih (c.setDataItem item.1 item.2)

end Connection

/-! ## Reading back -/

/-- A decoder reads what is written of a value, on one line or on many, as that value. -/
def ReadsBack {α : Type} (decoder : Dialect → Tree → Decoded α) (d : Datum) (x : α) : Prop :=
  Json.decode decoder (Json.text d) = .ok x ∧ Json.decode decoder (Json.prettyText d) = .ok x

theorem readsBack_of_exact {α : Type} {decoder : Dialect → Tree → Decoded α} {d : Datum} {x : α}
    (h : d.Exact) (hx : decoder Json.dialect d.toTree = .ok x) : ReadsBack decoder d x := by
  obtain ⟨hline, hlines⟩ := Json.decode_text h decoder
  exact ⟨hline.trans hx, hlines.trans hx⟩

/-- The answers of a plugin and connections are read back from their text as they were, whatever
texts and flags they hold; what was set in a connection is in it, the last value of each item. Flags
are read back from their own text, and those of an answer are the word that the plugin left in its
last slot. -/
theorem records_readBack :
    (∀ info : ServiceInfo, ReadsBack ServiceInfo.ofTree info.toDatum info) ∧
    (∀ detail : AddDetail, ReadsBack AddDetail.ofTree detail.toDatum detail) ∧
    (∀ c : Connection, ReadsBack Connection.ofTree c.toDatum c) ∧
    (∀ (c : Connection) (items : List (String × String)),
      c.withItems items = { c with data := (c.withItems items).data } ∧
      ∀ key, (c.withItems items).dataItem? key =
        (items.reverse.lookup key).or (c.dataItem? key)) ∧
    (∀ f : ServiceFlags, ServiceFlags.ofText? f.text = some f) ∧
    (∀ plugin history serviceType info later,
      serviceInfo plugin history serviceType = (.ok info, later) ↔
        plugin.Fills history "get-service-info" [.string serviceType]
          [.string info.shortName, .string info.prettyName, .string info.description,
            .uint info.flags.bits] later) := by
  refine ⟨fun info => ?_, fun detail => ?_, fun c => ?_, fun c items => ?_,
    ServiceFlags.ofText?_text, ?_⟩
  · exact readsBack_of_exact info.exact_toDatum (info.ofTree_toDatum _)
  · exact readsBack_of_exact detail.exact_toDatum (detail.ofTree_toDatum _)
  · exact readsBack_of_exact c.exact_toDatum (c.ofTree_toDatum _)
  · exact ⟨c.withItems_eq items, c.dataItem?_withItems items⟩
  · intro plugin history serviceType info later
    exact serviceInfo_eq_ok_iff

end PluginHost
