import PluginHost.Call.Service
import PluginHost.Proofs.Call.TypedCall
import PluginHost.Proofs.Data.Members
import PluginHost.Proofs.Flags.Text
import PluginHost.Proofs.Json.Writing

/-! # Answers of well-known calls

What a plugin says about a service type is what it left in its slots, every bit of the flags
included. The answers are read back from data as they were. -/

namespace PluginHost

theorem Datum.Exact.sorted {d : Datum} (h : d.Exact) : d.sorted.Exact := by
  cases h with
  | record h => exact .record fun m hm => h m (Datum.mem_sortedMembers hm)
  | null => exact .null
  | bool b => exact .bool b
  | integer hleast hgreatest => exact .integer hleast hgreatest
  | text s => exact .text s
  | list h => exact .list h

theorem ServiceFlags.ofTree_toDatum (d : Dialect) (f : ServiceFlags) :
    ofTree d f.toDatum.toTree = .ok f := by
  simp [ofTree, toDatum, Datum.toTree, Decode.textAs, ofText?_text, bind, Except.bind, pure,
    Except.pure]

namespace ServiceInfo

/-- The values that a plugin leaves for an answer. -/
def values (info : ServiceInfo) : List CallValue :=
  [.string info.shortName, .string info.prettyName, .string info.description,
    .uint info.flags.bits]

theorem ofTree_toDatum (d : Dialect) (info : ServiceInfo) :
    ofTree d info.toDatum.toTree = .ok info := by
  have hflags := ServiceFlags.ofTree_toDatum d info.flags
  refine Decode.structure_eq_ok (rfl : _ = ["short_name", "pretty_name", "description", "flags"])
    (by decide) (.refl _) (.refl (by simp)) ?_ fun fields hgiven => ?_
  · intro rule hrule x hx
    simp only [List.mem_cons, List.not_mem_nil, or_false] at hrule
    rcases hrule with rfl | rfl | rfl | rfl <;> cases hx
    · rfl
    · rfl
    · rfl
    · exact Decode.test_field hflags
  · have hshort := Decode.required_of_lookup (hgiven "short_name" (by decide))
      (Decode.text_toTree d _)
    have hpretty := Decode.required_of_lookup (hgiven "pretty_name" (by decide))
      (Decode.text_toTree d _)
    have hdescription := Decode.required_of_lookup (hgiven "description" (by decide))
      (Decode.text_toTree d _)
    have hbits := Decode.required_of_lookup (hgiven "flags" (by decide)) hflags
    simp only [hshort, hpretty, hdescription, hbits]
    rfl

theorem exact_toDatum (info : ServiceInfo) : info.toDatum.Exact := by
  refine .record fun m hm => ?_
  simp only [List.mem_cons, List.not_mem_nil, or_false] at hm
  rcases hm with rfl | rfl | rfl | rfl <;> exact .text _

end ServiceInfo

/-- A plugin is told to say a thing about a service type exactly if it left it in its slots. -/
theorem serviceInfo_eq_ok_iff {plugin : Plugin} {history later : History} {serviceType : String}
    {info : ServiceInfo} :
    serviceInfo plugin history serviceType = (.ok info, later) ↔
      plugin.Fills history WellKnownCall.serviceInfo.name [.string serviceType] info.values
        later := by
  have htyped : callTyped plugin history WellKnownCall.serviceInfo.name [.string serviceType]
      [.string, .string, .string, .uint] =
        (.ok (info.shortName, info.prettyName, info.description, info.flags.bits, ()), later) ↔
      plugin.Fills history WellKnownCall.serviceInfo.name [.string serviceType] info.values
        later := callTyped_eq_ok_iff
  rw [← htyped, serviceInfo]
  generalize callTyped plugin history WellKnownCall.serviceInfo.name [.string serviceType]
    [.string, .string, .string, .uint] = call
  obtain ⟨result, after⟩ := call
  cases result with
  | error e => exact ⟨nofun, nofun⟩
  | ok tuple =>
      obtain ⟨shortName, prettyName, description, bits, ⟨⟩⟩ := tuple
      obtain ⟨shortName', prettyName', description', ⟨bits'⟩⟩ := info
      constructor
      · intro h
        cases h
        rfl
      · intro h
        cases h
        rfl

namespace AddDetail

theorem word_toTree (d : Dialect) (bits : UInt32) :
    Decode.integer d "u32" 0 (twoTo 32 - 1) (Datum.integer bits.toNat).toTree =
      .ok (bits.toNat : Int) := by
  have hbits := bits.toNat_lt
  refine Decode.integer_eq_ok.mpr ⟨rfl, ?_⟩
  rw [twoTo_32]
  omega

/-- In whatever order its members stand, a detail is decoded from them. -/
theorem ofTree_of_perm {detail : AddDetail} {known members : List (String × Datum)}
    (hknown : detail.toDatum = .record known) (h : members.Perm known) (d : Dialect) :
    ofTree d (Datum.record members).toTree = .ok detail := by
  have hword := word_toTree d detail.flags
  cases hknown
  refine Decode.structure_eq_ok
    (rfl : _ = ["pretty_name", "description", "add_detail_key", "flags"])
    (by decide) (.refl _) (knownMembers_of_perm h (by simp)) ?_ fun fields hgiven => ?_
  · intro rule hrule x hx
    simp only [List.mem_cons, List.not_mem_nil, or_false] at hrule
    rcases hrule with rfl | rfl | rfl | rfl <;> cases hx
    · rfl
    · rfl
    · rfl
    · exact Decode.test_field hword
  · have hpretty := Decode.required_of_lookup (hgiven "pretty_name" (by decide))
      (Decode.text_toTree d _)
    have hdescription := Decode.required_of_lookup (hgiven "description" (by decide))
      (Decode.text_toTree d _)
    have hkey := Decode.required_of_lookup (hgiven "add_detail_key" (by decide))
      (Decode.text_toTree d _)
    have hbits := Decode.required_of_lookup (hgiven "flags" (by decide)) hword
    simp only [hpretty, hdescription, hkey, hbits]
    simp [bind, Except.bind, pure, Except.pure]

theorem ofTree_toDatum (d : Dialect) (detail : AddDetail) :
    ofTree d detail.toDatum.toTree = .ok detail :=
  ofTree_of_perm rfl (.refl _) d

theorem ofTree_sorted (d : Dialect) (detail : AddDetail) :
    ofTree d detail.toDatum.sorted.toTree = .ok detail :=
  ofTree_of_perm rfl (Datum.sortedMembers_perm (by simp)) d

theorem exact_toDatum (detail : AddDetail) : detail.toDatum.Exact := by
  refine .record fun m hm => ?_
  simp only [List.mem_cons, List.not_mem_nil, or_false] at hm
  rcases hm with rfl | rfl | rfl | rfl
  · exact .text _
  · exact .text _
  · exact .text _
  · have hbits := detail.flags.toNat_lt
    refine .integer ?_ ?_
    · rw [twoTo_63]
      omega
    · rw [twoTo_64]
      omega

end AddDetail

end PluginHost
