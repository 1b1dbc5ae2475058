import PluginHost.Proofs.Call.Checks

/-! # One checked call

What a checked call asks of a plugin depends on the plugin's answer to the one query for the call's
signature. The handler runs exactly when there is an answer and the values fit it. -/

namespace PluginHost

/-! ## Queries -/

/-- The answer of a plugin to a query for a call's signature. There is none either if the plugin
has no handler at all, or not this call. -/
def Plugin.answer? (plugin : Plugin) (history : History) (call : String) : Option Signature :=
  match plugin.handler with
  | none => none
  | some handler =>
    match handler.signature call with
    | none => none
    | some declared => declared history

/-- A plugin with nothing but generic calls. -/
def CallHandler.plugin (handler : CallHandler) : Plugin where
  name := "calls"
  description := ""
  service := ""
  capabilities := Capabilities.none
  handler := some handler
  editor _ := .error ""
  importFile _ := none
  exportFile _ _ := none
  suggestedName _ := none

theorem negotiate_of_answer {plugin : Plugin} {history : History} {call : String} {s : Signature}
    (h : plugin.answer? history call = some s) :
    ∃ handler, plugin.handler = some handler ∧
      negotiate plugin history call =
        (.ok (handler, s), history ++ [.queried call (some s)]) := by
  unfold Plugin.answer? at h
  cases hk : plugin.handler with
  | none => simp [hk] at h
  | some handler =>
      cases hd : handler.signature call with
      | none => simp [hk, hd] at h
      | some declared =>
          have hs : declared history = some s := by simpa [hk, hd] using h
          exact ⟨handler, rfl, by simp [negotiate, hk, hd, hs]⟩

theorem negotiate_of_no_answer {plugin : Plugin} {history : History} {call : String}
    (h : plugin.answer? history call = none) :
    ∃ asked, (asked = [] ∨ asked = [.queried call none]) ∧
      negotiate plugin history call = (.error (.unsupportedCall call), history ++ asked) := by
  unfold Plugin.answer? at h
  cases hk : plugin.handler with
  | none => exact ⟨[], .inl rfl, by simp [negotiate, hk]⟩
  | some handler =>
      cases hd : handler.signature call with
      | none => exact ⟨[], .inl rfl, by simp [negotiate, hk, hd]⟩
      | some declared =>
          have hs : declared history = none := by simpa [hk, hd] using h
          exact ⟨[.queried call none], .inr rfl, by simp [negotiate, hk, hd, hs]⟩

/-! ## Calls -/

theorem callWith_of_no_answer {plugin : Plugin} {history : History} {call : String}
    (h : plugin.answer? history call = none) (inputs slots : List CallValue) :
    ∃ asked, (asked = [] ∨ asked = [.queried call none]) ∧
      callWith plugin history call inputs slots =
        ⟨.error (.unsupportedCall call), slots, history ++ asked⟩ := by
  obtain ⟨asked, hasked, hn⟩ := negotiate_of_no_answer h
  exact ⟨asked, hasked, by simp only [callWith, hn]⟩

/-- Inputs are checked first. -/
theorem callWith_of_input_fault {plugin : Plugin} {history : History} {call : String}
    {s : Signature} {inputs : List CallValue} {fault : ArgumentFault}
    (h : plugin.answer? history call = some s)
    (hi : checkTags .input s.inputs inputs = .error fault) (slots : List CallValue) :
    callWith plugin history call inputs slots =
      ⟨.error (.invalidArgument call fault), slots, history ++ [.queried call (some s)]⟩ := by
  obtain ⟨handler, _, hn⟩ := negotiate_of_answer h
  have hc : s.checkInputs call inputs = .error (.invalidArgument call fault) :=
    (mapError_eq_error_iff _ _ _).mpr ⟨fault, hi, rfl⟩
  simp only [callWith, hn, hc]

theorem callWith_of_slot_fault {plugin : Plugin} {history : History} {call : String}
    {s : Signature} {inputs slots : List CallValue} {fault : ArgumentFault}
    (h : plugin.answer? history call = some s) (hi : inputs.map CallValue.tag = s.inputs)
    (ho : checkTags .output s.outputs slots = .error fault) :
    callWith plugin history call inputs slots =
      ⟨.error (.invalidArgument call fault), slots, history ++ [.queried call (some s)]⟩ := by
  obtain ⟨handler, _, hn⟩ := negotiate_of_answer h
  have hc : s.checkOutputs call slots = .error (.invalidArgument call fault) :=
    (mapError_eq_error_iff _ _ _).mpr ⟨fault, ho, rfl⟩
  simp only [callWith, hn, (s.checkInputs_eq_ok_iff call inputs).mpr hi, hc]

/-- Values that do not fit the answer are refused before the handler runs. -/
theorem callWith_of_not_fits {plugin : Plugin} {history : History} {call : String}
    {s : Signature} {inputs slots : List CallValue} (h : plugin.answer? history call = some s)
    (hf : ¬ s.Fits inputs slots) :
    ∃ fault, callWith plugin history call inputs slots =
      ⟨.error (.invalidArgument call fault), slots, history ++ [.queried call (some s)]⟩ := by
  cases hi : checkTags .input s.inputs inputs with
  | error fault => exact ⟨fault, callWith_of_input_fault h hi slots⟩
  | ok u =>
      have hin := (checkTags_eq_ok_iff _ _ _).mp hi
      cases ho : checkTags .output s.outputs slots with
      | error fault => exact ⟨fault, callWith_of_slot_fault h hin ho⟩
      | ok u => exact (hf ⟨hin, (checkTags_eq_ok_iff _ _ _).mp ho⟩).elim

theorem callWith_of_fits {plugin : Plugin} {history : History} {call : String} {s : Signature}
    {inputs slots : List CallValue} (h : plugin.answer? history call = some s)
    (hf : s.Fits inputs slots) :
    ∃ handler, plugin.handler = some handler ∧
      callWith plugin history call inputs slots =
        runChecked handler s (history ++ [.queried call (some s)]) call inputs slots := by
  obtain ⟨handler, hk, hn⟩ := negotiate_of_answer h
  have hi := (s.checkInputs_eq_ok_iff call inputs).mpr hf.1
  have ho := (s.checkOutputs_eq_ok_iff call slots).mpr hf.2
  exact ⟨handler, hk, by simp only [callWith, hn, hi, ho]⟩

@[simp] theorem history_runChecked (handler : CallHandler) (s : Signature) (history : History)
    (call : String) (inputs slots : List CallValue) :
    (runChecked handler s history call inputs slots).history =
      history ++ [.invoked call inputs slots] := by
  unfold runChecked
  cases handler.run history call inputs slots with
  | mk writes outcome => cases outcome with
    | ok u => rfl
    | error reason => cases reason <;> rfl

@[simp] theorem slots_runChecked (handler : CallHandler) (s : Signature) (history : History)
    (call : String) (inputs slots : List CallValue) :
    (runChecked handler s history call inputs slots).slots =
      (handler.run history call inputs slots).apply slots := by
  unfold runChecked
  cases handler.run history call inputs slots with
  | mk writes outcome => cases outcome with
    | ok u => rfl
    | error reason => cases reason <;> rfl

theorem result_runChecked (handler : CallHandler) (s : Signature) (history : History)
    (call : String) (inputs slots : List CallValue) :
    (runChecked handler s history call inputs slots).result =
      match (handler.run history call inputs slots).outcome with
      | .ok () => s.checkOutputs call ((handler.run history call inputs slots).apply slots)
      | .error (some reason) => .error (.callFailed call reason)
      | .error none => .error (.unsupportedCall call) := by
  unfold runChecked
  cases handler.run history call inputs slots with
  | mk writes outcome => cases outcome with
    | ok u => rfl
    | error reason => cases reason <;> rfl

theorem runChecked_eq_ok_iff {handler : CallHandler} {s : Signature} {history : History}
    {call : String} {inputs slots : List CallValue} :
    (runChecked handler s history call inputs slots).result = .ok () ↔
      (handler.run history call inputs slots).outcome = .ok () ∧
        ((handler.run history call inputs slots).apply slots).map CallValue.tag = s.outputs := by
  rw [result_runChecked, ← s.checkOutputs_eq_ok_iff call]
  cases (handler.run history call inputs slots).outcome with
  | ok u => simp
  | error reason => cases reason <;> simp

/-! ## What a plugin goes through -/

/-- What one step of a caller may add to a plugin's history: nothing, a query, or a query directly
followed by a run under its answer. -/
inductive Exchange (plugin : Plugin) (history : History) : List PluginEvent → Prop where
  | silent : Exchange plugin history []
  | asked (call answer) (h : plugin.answer? history call = answer) :
      Exchange plugin history [.queried call answer]
  | ran (call s inputs slots) (h : plugin.answer? history call = some s)
      (hf : s.Fits inputs slots) :
      Exchange plugin history [.queried call (some s), .invoked call inputs slots]

theorem negotiate_exchange (plugin : Plugin) (history : History) (call : String) :
    ∃ events, (negotiate plugin history call).2 = history ++ events ∧
      Exchange plugin history events ∧ History.invocations events = [] := by
  cases h : plugin.answer? history call with
  | none =>
      obtain ⟨asked, hasked, hn⟩ := negotiate_of_no_answer h
      refine ⟨asked, by rw [hn], ?_⟩
      rcases hasked with rfl | rfl
      · exact ⟨.silent, rfl⟩
      · exact ⟨.asked call none h, rfl⟩
  | some s =>
      obtain ⟨handler, _, hn⟩ := negotiate_of_answer h
      exact ⟨[.queried call (some s)], by rw [hn], .asked call _ h, rfl⟩

/-- The negotiation of a call and the checks of its values succeed. -/
def Plugin.Admits (plugin : Plugin) (history : History) (call : String)
    (inputs slots : List CallValue) : Prop :=
  ∃ handler s, (negotiate plugin history call).1 = .ok (handler, s) ∧
    s.checkInputs call inputs = .ok () ∧ s.checkOutputs call slots = .ok ()

theorem admits_iff (plugin : Plugin) (history : History) (call : String)
    (inputs slots : List CallValue) :
    plugin.Admits history call inputs slots ↔
      ∃ s, plugin.answer? history call = some s ∧ s.Fits inputs slots := by
  constructor
  · rintro ⟨handler, s, hn, hi, ho⟩
    cases h : plugin.answer? history call with
    | none =>
        obtain ⟨asked, _, he⟩ := negotiate_of_no_answer h
        rw [he] at hn
        cases hn
    | some t =>
        obtain ⟨_, _, he⟩ := negotiate_of_answer h
        rw [he] at hn
        cases hn
        exact ⟨s, rfl, (s.checkInputs_eq_ok_iff call inputs).mp hi,
          (s.checkOutputs_eq_ok_iff call slots).mp ho⟩
  · rintro ⟨s, hs, hf⟩
    obtain ⟨handler, _, hn⟩ := negotiate_of_answer hs
    exact ⟨handler, s, by rw [hn], (s.checkInputs_eq_ok_iff call inputs).mpr hf.1,
      (s.checkOutputs_eq_ok_iff call slots).mpr hf.2⟩

theorem not_admits_of_no_answer {plugin : Plugin} {history : History} {call : String}
    (h : plugin.answer? history call = none) (inputs slots : List CallValue) :
    ¬ plugin.Admits history call inputs slots := by
  rw [admits_iff, h]
  rintro ⟨s, hs, _⟩
  cases hs

theorem admits_iff_fits {plugin : Plugin} {history : History} {call : String} {s : Signature}
    (h : plugin.answer? history call = some s) (inputs slots : List CallValue) :
    plugin.Admits history call inputs slots ↔ s.Fits inputs slots := by
  rw [admits_iff, h]
  constructor
  · rintro ⟨t, ht, hf⟩
    cases ht
    exact hf
  · intro hf
    exact ⟨s, rfl, hf⟩

/-- A checked call runs the handler once, on its own values, if the plugin admits them, and not at
all otherwise. -/
theorem callWith_exchange (plugin : Plugin) (history : History) (call : String)
    (inputs slots : List CallValue) :
    ∃ events, (callWith plugin history call inputs slots).history = history ++ events ∧
      Exchange plugin history events ∧
      (plugin.Admits history call inputs slots ∧
          History.invocations events = [.invoked call inputs slots] ∨
        ¬ plugin.Admits history call inputs slots ∧ History.invocations events = []) := by
  cases h : plugin.answer? history call with
  | none =>
      have hno := not_admits_of_no_answer h inputs slots
      obtain ⟨asked, hasked, hc⟩ := callWith_of_no_answer h inputs slots
      refine ⟨asked, by rw [hc], ?_⟩
      rcases hasked with rfl | rfl
      · exact ⟨.silent, .inr ⟨hno, rfl⟩⟩
      · exact ⟨.asked call none h, .inr ⟨hno, rfl⟩⟩
  | some s =>
      rw [admits_iff_fits h]
      by_cases hf : s.Fits inputs slots
      · obtain ⟨handler, _, hc⟩ := callWith_of_fits h hf
        refine ⟨[.queried call (some s), .invoked call inputs slots], ?_, .ran call s _ _ h hf,
          .inl ⟨hf, rfl⟩⟩
        rw [hc, history_runChecked, List.append_assoc]
        rfl
      · obtain ⟨fault, hc⟩ := callWith_of_not_fits h hf
        exact ⟨[.queried call (some s)], by rw [hc], .asked call _ h, .inr ⟨hf, rfl⟩⟩

end PluginHost
