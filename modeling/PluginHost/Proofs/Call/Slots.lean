import PluginHost.Proofs.Call.Exchange
import PluginHost.Proofs.Call.Faults

/-! # Output slots of a checked call

A call that is refused leaves the slots alone. A handler may write what it likes; the call only
succeeds if the slots are of the same types afterwards as they were before. -/

namespace PluginHost

namespace CallReport

/-- The call was refused: the plugin does not have it, or the inputs or else the slots are not what
the plugin declares. The slots are as they were. -/
structure Refused (report : CallReport) (plugin : Plugin) (history : History) (call : String)
    (inputs slots : List CallValue) : Prop where
  slots_eq : report.slots = slots
  result :
    plugin.answer? history call = none ∧ report.result = .error (.unsupportedCall call) ∨
    ∃ s fault, plugin.answer? history call = some s ∧
      report.result = .error (.invalidArgument call fault) ∧
      (FirstFault .input s.inputs (inputs.map CallValue.tag) fault ∨
        inputs.map CallValue.tag = s.inputs ∧
          FirstFault .output s.outputs (slots.map CallValue.tag) fault)

/-- The call was run. Its slots hold what the handler wrote, and its result is the handler's,
unless a slot changed its type. -/
structure Ran (report : CallReport) (run : HandlerRun) (s : Signature) (call : String)
    (inputs slots : List CallValue) : Prop where
  fits : s.Fits inputs slots
  slots_eq : report.slots = run.apply slots
  ok_iff : report.result = .ok () ↔
    run.outcome = .ok () ∧ report.slots.map CallValue.tag = s.outputs
  types_eq : report.result = .ok () →
    report.slots.length = slots.length ∧
      report.slots.map CallValue.tag = slots.map CallValue.tag
  failed : ∀ reason, run.outcome = .error (some reason) →
    report.result = .error (.callFailed call reason)
  declined : run.outcome = .error none → report.result = .error (.unsupportedCall call)
  changed : run.outcome = .ok () → report.slots.map CallValue.tag ≠ slots.map CallValue.tag →
    ∃ position tag expected,
      FirstDifference (slots.map CallValue.tag) (report.slots.map CallValue.tag) position ∧
      (report.slots.map CallValue.tag)[position]? = some tag ∧
      (slots.map CallValue.tag)[position]? = some expected ∧
      report.result = .error (.invalidArgument call (.mismatch .output position tag expected))

end CallReport

variable {plugin : Plugin} {handler : CallHandler} {s : Signature} {history : History}
  {call : String} {inputs slots : List CallValue}

/-! ## Calls that are refused -/

theorem callWith_refused_unanswered (h : plugin.answer? history call = none)
    (inputs slots : List CallValue) :
    ∃ events, (callWith plugin history call inputs slots).history = history ++ events ∧
      History.invocations events = [] ∧
      (callWith plugin history call inputs slots).Refused plugin history call inputs slots := by
  obtain ⟨asked, hasked, hc⟩ := callWith_of_no_answer h inputs slots
  have hnone : History.invocations asked = [] := by
    rcases hasked with rfl | rfl <;> rfl
  rw [hc]
  exact ⟨asked, rfl, hnone, rfl, .inl ⟨h, rfl⟩⟩

/-- Inputs that are not declared are refused before the slots are looked at. -/
theorem callWith_refused_unfit (h : plugin.answer? history call = some s)
    (hf : ¬ s.Fits inputs slots) :
    (callWith plugin history call inputs slots).history = history ++ [.queried call (some s)] ∧
      (callWith plugin history call inputs slots).Refused plugin history call inputs slots := by
  cases hi : checkTags .input s.inputs inputs with
  | error fault =>
      have hfirst := (checkTags_eq_error_iff .input s.inputs inputs fault).mp hi
      rw [callWith_of_input_fault h hi slots]
      exact ⟨rfl, rfl, .inr ⟨s, fault, h, rfl, .inl hfirst⟩⟩
  | ok u =>
      have hin := (checkTags_eq_ok_iff .input s.inputs inputs).mp hi
      cases ho : checkTags .output s.outputs slots with
      | error fault =>
          have hfirst := (checkTags_eq_error_iff .output s.outputs slots fault).mp ho
          rw [callWith_of_slot_fault h hin ho]
          exact ⟨rfl, rfl, .inr ⟨s, fault, h, rfl, .inr ⟨hin, hfirst⟩⟩⟩
      | ok u => exact absurd ⟨hin, (checkTags_eq_ok_iff .output s.outputs slots).mp ho⟩ hf

/-! ## Calls that are run -/

theorem runChecked_ran (handler : CallHandler) (hf : s.Fits inputs slots) (history : History)
    (call : String) :
    (runChecked handler s history call inputs slots).Ran
      (handler.run history call inputs slots) s call inputs slots := by
  have hresult := result_runChecked handler s history call inputs slots
  have hslots := slots_runChecked handler s history call inputs slots
  have hok := @runChecked_eq_ok_iff handler s history call inputs slots
  generalize handler.run history call inputs slots = run at hresult hslots hok
  generalize runChecked handler s history call inputs slots = report at hresult hslots hok
  rw [← hslots] at hok
  have hlength : report.slots.length = slots.length := by rw [hslots, run.length_apply]
  constructor
  case fits => exact hf
  case slots_eq => exact hslots
  case ok_iff => exact hok
  case types_eq =>
    intro h
    exact ⟨hlength, (hok.mp h).2.trans hf.2.symm⟩
  case failed =>
    intro reason hrun
    rw [hresult, hrun]
  case declined =>
    intro hrun
    rw [hresult, hrun]
  case changed =>
    intro hrun hne
    rw [hf.2] at hne ⊢
    rw [hrun, ← hslots] at hresult
    cases hc : checkTags .output s.outputs report.slots with
    | ok u => exact absurd ((checkTags_eq_ok_iff _ _ _).mp hc) hne
    | error fault =>
        -- slots are never lost, so the first fault is that of a slot
        have hfirst := (checkTags_eq_error_iff _ _ _ _).mp hc
        have hcount : (report.slots.map CallValue.tag).length = s.outputs.length := by
          rw [← hf.2, List.length_map, List.length_map, hlength]
        obtain ⟨position, tag, expected, hdifference, hfound, hdeclared, rfl⟩ :=
          hfirst.eq_mismatch hcount
        refine ⟨position, tag, expected, hdifference, hfound, hdeclared, ?_⟩
        rw [hresult, Signature.checkOutputs, hc, mapError_error]

/-- A checked call that does not run the handler leaves the slots as they were and fails; one that
does runs it once and succeeds exactly if the handler does and every slot keeps its type. -/
theorem callWith_settles (plugin : Plugin) (history : History) (call : String)
    (inputs slots : List CallValue) :
    ∃ events, (callWith plugin history call inputs slots).history = history ++ events ∧
      (History.invocations events = [] ∧
          (callWith plugin history call inputs slots).Refused plugin history call inputs slots ∨
        History.invocations events = [.invoked call inputs slots] ∧
          ∃ handler s, plugin.handler = some handler ∧ plugin.answer? history call = some s ∧
            (callWith plugin history call inputs slots).Ran
              (handler.run (history ++ [.queried call (some s)]) call inputs slots) s call inputs
              slots) := by
  cases h : plugin.answer? history call with
  | none =>
      obtain ⟨events, hhistory, hnone, hrefused⟩ := callWith_refused_unanswered h inputs slots
      exact ⟨events, hhistory, .inl ⟨hnone, hrefused⟩⟩
  | some s =>
      by_cases hf : s.Fits inputs slots
      · obtain ⟨handler, hhandler, hc⟩ := callWith_of_fits h hf
        rw [hc, history_runChecked, List.append_assoc]
        exact ⟨_, rfl, .inr ⟨rfl, handler, s, hhandler, rfl, runChecked_ran handler hf _ call⟩⟩
      · obtain ⟨hhistory, hrefused⟩ := callWith_refused_unfit h hf
        exact ⟨_, hhistory, .inl ⟨rfl, hrefused⟩⟩

end PluginHost
