import PluginHost.Proofs.Call.Exchange

/-! # Calls under construction

A call under construction asks its plugin nothing while inputs are collected. It is run like any
other checked call, on the inputs and on fresh slots of the signature under which it was begun. -/

namespace PluginHost

namespace PendingCall

theorem pushAs_eq_ok_iff (c next : PendingCall) (tag : TypeTag) (value : CallValue) :
    c.pushAs tag value = .ok next ↔
      c.signature.inputs[c.inputs.length]? = some tag ∧
        next = { c with inputs := c.inputs ++ [value] } := by
  have hexpect : c.signature.expectInput c.call c.inputs.length tag = .ok () ↔
      c.signature.inputs[c.inputs.length]? = some tag := by
    rw [Signature.expectInput, mapError_eq_ok_iff, expectTag_eq_ok_iff]
  unfold pushAs
  cases h : c.signature.expectInput c.call c.inputs.length tag with
  | ok u => simp [hexpect.mp h, eq_comm]
  | error e =>
      have hne : c.signature.inputs[c.inputs.length]? ≠ some tag := by
        intro hget
        rw [hexpect.mpr hget] at h
        cases h
      simp [hne]

theorem plugin_of_pushAs {c next : PendingCall} {tag : TypeTag} {value : CallValue}
    (h : c.pushAs tag value = .ok next) : next.plugin = c.plugin := by
  obtain ⟨_, rfl⟩ := (c.pushAs_eq_ok_iff next tag value).mp h
  rfl

/-- Beginning a call only queries its signature. -/
theorem start_of_answer {plugin : Plugin} {history : History} {call : String} {s : Signature}
    (h : plugin.answer? history call = some s) :
    start plugin history call =
      (.ok ⟨plugin, call, s, []⟩, history ++ [.queried call (some s)]) := by
  obtain ⟨handler, _, hn⟩ := negotiate_of_answer h
  simp only [start, hn]

theorem start_of_no_answer {plugin : Plugin} {history : History} {call : String}
    (h : plugin.answer? history call = none) :
    ∃ asked, (asked = [] ∨ asked = [.queried call none]) ∧
      start plugin history call = (.error (.unsupportedCall call), history ++ asked) := by
  obtain ⟨asked, hasked, hn⟩ := negotiate_of_no_answer h
  exact ⟨asked, hasked, by simp only [start, hn]⟩

/-! ## Collecting inputs -/

/-- Inputs are collected one by one exactly as far as a check of the whole list goes, and the first
fault is the same. -/
theorem pushAll_eq (c : PendingCall) (values : List CallValue) :
    c.pushAll values =
      match expectTags .input c.signature.inputs c.inputs.length values with
      | .ok () => .ok { c with inputs := c.inputs ++ values }
      | .error fault => .error (.invalidArgument c.call fault) := by
  induction values generalizing c with
  | nil => simp [pushAll, expectTags]
  | cons v vs ih =>
      cases he : expectTag .input c.signature.inputs c.inputs.length v.tag with
      | ok u =>
          have hpush : c.push v = .ok { c with inputs := c.inputs ++ [v] } :=
            (c.pushAs_eq_ok_iff _ v.tag v).mpr ⟨(expectTag_eq_ok_iff _ _ _ _).mp he, rfl⟩
          rw [pushAll, hpush, expectTags_cons_of_ok he]
          simp only [ih, List.length_append, List.length_singleton, List.append_assoc,
            List.singleton_append]
      | error fault =>
          have hpush : c.push v = .error (.invalidArgument c.call fault) := by
            simp only [push, pushAs, Signature.expectInput, he, mapError_error]
          rw [pushAll, hpush, expectTags_cons_of_error he]

theorem pushAll_eq_ok_iff (c next : PendingCall) (values : List CallValue) :
    c.pushAll values = .ok next ↔
      values.map CallValue.tag <+: c.signature.inputs.drop c.inputs.length ∧
        next = { c with inputs := c.inputs ++ values } := by
  rw [pushAll_eq, ← expectTags_eq_ok_iff .input]
  cases expectTags .input c.signature.inputs c.inputs.length values with
  | ok u => simp [eq_comm]
  | error fault => simp

/-! ## Running the call -/

theorem invoke_of_incomplete {c : PendingCall} (h : c.inputs.length ≠ c.signature.inputs.length)
    (history : History) :
    c.invoke history =
      (.error (.invalidArgument c.call
        (.count .input c.inputs.length c.signature.inputs.length)), history) := by
  simp only [invoke, h, if_false]

/-- A call whose inputs are complete is run as a checked call on fresh slots. -/
theorem invoke_of_complete {c : PendingCall} (h : c.inputs.length = c.signature.inputs.length)
    (history : History) :
    c.invoke history =
      let report := callWith c.plugin history c.call c.inputs c.signature.outputSlots
      (report.result.map fun _ => ⟨c.call, c.signature, report.slots, 0⟩, report.history) := by
  simp only [invoke, h, if_true]
  split
  · rename_i hr
    rw [hr]
    rfl
  · rename_i e hr
    rw [hr]
    rfl

end PendingCall

end PluginHost
