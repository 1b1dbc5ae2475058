import PluginHost.Proofs.Call.CopyBack
import PluginHost.Proofs.Call.VectorForm
import PluginHost.Proofs.Data.Structures

/-! # Calls whose outputs are copied back as a tuple

Such a call succeeds exactly if the plugin leaves in its slots the values that the tuple holds. So
nothing is made up on the way, and nothing that the plugin wrote gets lost. -/

namespace PluginHost

/-- The plugin is asked twice for the signature of a call, which the inputs fit; its handler then
runs on fresh slots, does not fail, and leaves these values in the slots. -/
inductive Plugin.Fills (plugin : Plugin) (history : History) (call : String)
    (inputs values : List CallValue) : History → Prop where
  | mk {s t handler asked} (hfirst : plugin.answer? history call = some s)
      (hsecond : plugin.answer? (history ++ [.queried call (some s)]) call = some t)
      (hasked : asked = history ++ [.queried call (some s)] ++ [.queried call (some t)])
      (hinputs : inputs.map CallValue.tag = s.inputs) (hfits : t.Fits inputs s.outputSlots)
      (hhandler : plugin.handler = some handler)
      (hok : (handler.run asked call inputs s.outputSlots).outcome = .ok ())
      (hvalues : (handler.run asked call inputs s.outputSlots).apply s.outputSlots = values)
      (htags : values.map CallValue.tag = s.outputs) :
      Fills plugin history call inputs values (asked ++ [.invoked call inputs s.outputSlots])

theorem CallValue.ofCarrier_injective {tag : TypeTag} {x y : tag.Carrier}
    (h : CallValue.ofCarrier tag x = .ofCarrier tag y) : x = y := by
  have hx := CallValue.toCarrier?_ofCarrier tag x
  rw [h, CallValue.toCarrier?_ofCarrier] at hx
  exact (Option.some.inj hx).symm

namespace CallOutputs

variable {call : String} {s : Signature} {taken : Nat} {o : CallOutputs}

theorem values_of_takeValue {tag : TypeTag} {v : CallValue} {rest : CallOutputs}
    (h : o.takeValue tag = .ok (v, rest)) : o.values = v :: rest.values := by
  unfold takeValue at h
  split at h
  next => cases h
  next =>
    split at h
    next => cases h
    next hvalues =>
      cases h
      exact hvalues

theorem extract_nil (o : CallOutputs) : o.extract [] = o.finish := by
  simp only [extract, takeTuple]
  cases o.finish <;> rfl

theorem extract_cons (o : CallOutputs) (tag : TypeTag) (tags : List TypeTag) :
    o.extract (tag :: tags) =
      match o.take tag with
      | .error e => .error e
      | .ok (x, rest) => (rest.extract tags).map fun xs => (x, xs) := by
  simp only [extract, takeTuple]
  cases o.take tag with
  | error e => rfl
  | ok next =>
      obtain ⟨x, rest⟩ := next
      dsimp only
      cases rest.takeTuple tags with
      | error e => rfl
      | ok taken =>
          obtain ⟨xs, left⟩ := taken
          dsimp only
          cases left.finish with
          | error e => rfl
          | ok u => rfl

/-- A tuple is copied back exactly if its members are the values that are left. -/
theorem Left.extract_eq_ok_iff (h : o.Left call s taken) {tags : List TypeTag}
    {xs : TypeTag.Tuple tags} : o.extract tags = .ok xs ↔ o.values = CallValue.ofTuple tags xs := by
  induction tags generalizing o taken with
  | nil =>
      rw [extract_nil]
      have hempty : o.remaining = 0 ↔ o.values = [] := List.length_eq_zero_iff
      rw [finish, CallValue.ofTuple, ← hempty]
      split
      next hnone => exact ⟨fun _ => hnone, fun _ => rfl⟩
      next hsome => exact ⟨nofun, fun hnone => absurd hnone hsome⟩
  | cons tag tags ih =>
      obtain ⟨x, xs⟩ := xs
      rw [extract_cons]
      by_cases htag : s.outputs[taken]? = some tag
      · obtain ⟨y, rest, htakeValue, htake, hrest⟩ := h.take_declared htag
        have hvalue : CallValue.ofCarrier tag y = .ofCarrier tag x ↔ y = x :=
          ⟨CallValue.ofCarrier_injective, congrArg _⟩
        rw [htake, values_of_takeValue htakeValue, CallValue.ofTuple, List.cons.injEq, ← ih hrest,
          hvalue]
        refine map_eq_ok.trans ⟨?_, ?_⟩
        · rintro ⟨_, hxs, hpair⟩
          cases hpair
          exact ⟨rfl, hxs⟩
        · rintro ⟨rfl, hxs⟩
          exact ⟨xs, hxs, rfl⟩
      · -- A tuple whose first type is not the next one is refused, and is not what is left.
        obtain ⟨fault, _, htake⟩ := h.take_refused htag
        rw [htake]
        refine ⟨nofun, fun hvalues => absurd ?_ htag⟩
        have htags := h.tags_eq
        rw [hvalues, CallValue.ofTuple, List.map_cons, CallValue.tag_ofCarrier] at htags
        rw [← List.head?_drop, ← htags, List.head?_cons]

end CallOutputs

variable {plugin : Plugin} {history later : History} {call : String} {inputs : List CallValue}

/-- What is known of a checked call that succeeded. -/
theorem callWith_eq_ok {slots : List CallValue}
    (h : (callWith plugin history call inputs slots).result = .ok ()) :
    ∃ t handler, plugin.answer? history call = some t ∧ t.Fits inputs slots ∧
      plugin.handler = some handler ∧
      callWith plugin history call inputs slots =
        runChecked handler t (history ++ [.queried call (some t)]) call inputs slots := by
  cases ht : plugin.answer? history call with
  | none =>
      obtain ⟨asked, _, hcall⟩ := callWith_of_no_answer ht inputs slots
      rw [hcall] at h
      cases h
  | some t =>
      by_cases hfits : t.Fits inputs slots
      · obtain ⟨handler, hhandler, hcall⟩ := callWith_of_fits ht hfits
        exact ⟨t, handler, rfl, hfits, hhandler, hcall⟩
      · obtain ⟨fault, hcall⟩ := callWith_of_not_fits ht hfits
        rw [hcall] at h
        cases h

theorem callThrough_of_inputs {s : Signature} (hs : plugin.answer? history call = some s)
    (hinputs : inputs.map CallValue.tag = s.inputs) :
    callThrough plugin history call inputs =
      let report := callWith plugin (history ++ [.queried call (some s)]) call inputs s.outputSlots
      (report.result.map fun _ => ⟨call, s, report.slots, 0⟩, report.history) := by
  rw [callThrough_of_answer hs, expectTags_of_tags_eq hinputs .input]
  exact PendingCall.invoke_of_complete (c := ⟨plugin, call, s, inputs⟩)
    (length_of_tags_eq hinputs) _

theorem inputs_of_callThrough {s : Signature} {o : CallOutputs}
    (hs : plugin.answer? history call = some s)
    (h : callThrough plugin history call inputs = (.ok o, later)) :
    inputs.map CallValue.tag = s.inputs := by
  rw [callThrough_of_answer hs] at h
  split at h
  next hcollect =>
    have hprefix := (expectTags_eq_ok_iff .input s.inputs 0 inputs).mp hcollect
    by_cases hlength : inputs.length = s.inputs.length
    · exact hprefix.eq_of_length (by simpa using hlength)
    · rw [PendingCall.invoke_of_incomplete (c := ⟨plugin, call, s, inputs⟩) hlength] at h
      cases h
  next => cases h

/-- A call that succeeds has the values that the plugin left in its slots. -/
theorem fills_of_callThrough {o : CallOutputs}
    (h : callThrough plugin history call inputs = (.ok o, later)) :
    plugin.Fills history call inputs o.values later := by
  cases hs : plugin.answer? history call with
  | none =>
      obtain ⟨asked, _, hnone⟩ := callThrough_of_no_answer hs inputs
      rw [hnone] at h
      cases h
  | some s =>
      have hinputs := inputs_of_callThrough hs h
      rw [callThrough_of_inputs hs hinputs] at h
      cases hresult : (callWith plugin (history ++ [.queried call (some s)]) call inputs
          s.outputSlots).result with
      | error e =>
          simp only [hresult] at h
          cases h
      | ok u =>
          obtain ⟨t, handler, ht, hfits, hhandler, hcall⟩ := callWith_eq_ok hresult
          rw [hcall] at hresult
          obtain ⟨hok, htags⟩ := runChecked_eq_ok_iff.mp hresult
          simp only [hcall, hresult, slots_runChecked, history_runChecked] at h
          cases h
          exact .mk hs ht rfl hinputs hfits hhandler hok rfl
            (htags.trans (hfits.2.symm.trans s.tag_outputSlots))

theorem callThrough_of_fills {values : List CallValue}
    (h : plugin.Fills history call inputs values later) :
    ∃ s, callThrough plugin history call inputs = (.ok ⟨call, s, values, 0⟩, later) := by
  cases h with
  | @mk s t handler asked hfirst hsecond hasked hinputs hfits hhandler hok hvalues htags =>
      obtain ⟨handler', hhandler', hcall⟩ := callWith_of_fits hsecond hfits
      cases hhandler.symm.trans hhandler'
      have hresult : (runChecked handler t asked call inputs s.outputSlots).result = .ok () := by
        refine runChecked_eq_ok_iff.mpr ⟨hok, ?_⟩
        rw [hvalues, htags, ← s.tag_outputSlots, hfits.2]
      refine ⟨s, ?_⟩
      rw [callThrough_of_inputs hfirst hinputs, hcall, ← hasked]
      simp only [hresult, slots_runChecked, history_runChecked, hvalues]
      rfl

theorem exists_left_of_callThrough {o : CallOutputs}
    (h : callThrough plugin history call inputs = (.ok o, later)) :
    ∃ name s, o.Left name s 0 := by
  unfold callThrough at h
  split at h
  next => cases h
  next =>
    split at h
    next => cases h
    next => exact ⟨_, _, .of_invoke h⟩

/-- A call succeeds with a tuple exactly if the plugin leaves the members of the tuple. -/
theorem callTyped_eq_ok_iff {tags : List TypeTag} {xs : TypeTag.Tuple tags} :
    callTyped plugin history call inputs tags = (.ok xs, later) ↔
      plugin.Fills history call inputs (CallValue.ofTuple tags xs) later := by
  constructor
  · intro h
    unfold callTyped at h
    split at h
    next => cases h
    next o after hcall =>
      obtain ⟨name, s, hleft⟩ := exists_left_of_callThrough hcall
      obtain ⟨hextract, rfl⟩ := Prod.mk.inj h
      rw [← hleft.extract_eq_ok_iff.mp hextract]
      exact fills_of_callThrough hcall
  · intro h
    obtain ⟨s, hcall⟩ := callThrough_of_fills h
    obtain ⟨name, s, hleft⟩ := exists_left_of_callThrough hcall
    simp only [callTyped, hcall, hleft.extract_eq_ok_iff.mpr rfl]

end PluginHost
