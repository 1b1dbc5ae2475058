import PluginHost.Proofs.Call.Building

/-! # Two ways of making a call

A call whose inputs are collected one by one has the result of the call that is made with all its
inputs at once, whichever of them is wrong, missing or too many. The first way asks for the
signature twice, so the plugin has to answer both times in the same way, and a run of its handler
must not depend on how often it was asked. -/

namespace PluginHost

/-! ## Plugins that do not drift -/

/-- What a signature declares, whoever owns its tables. -/
def Signature.types (s : Signature) : List TypeTag × List TypeTag :=
  (s.inputs, s.outputs)

/-- The plugin answers every query for a call in the same way: with the types of one signature, or
never. -/
def Plugin.AnswersAlways (plugin : Plugin) (call : String) (answer : Option Signature) : Prop :=
  ∀ history, (plugin.answer? history call).map Signature.types = answer.map Signature.types

theorem Plugin.AnswersAlways.none {plugin : Plugin} {call : String}
    (h : plugin.AnswersAlways call none) (history : History) :
    plugin.answer? history call = none := by
  simpa using h history

theorem Plugin.AnswersAlways.some {plugin : Plugin} {call : String} {s : Signature}
    (h : plugin.AnswersAlways call (some s)) (history : History) :
    ∃ t, plugin.answer? history call = some t ∧ t.inputs = s.inputs ∧ t.outputs = s.outputs := by
  have ht := h history
  rw [Option.map_some, Option.map_eq_some_iff] at ht
  obtain ⟨t, ht, htypes⟩ := ht
  simp only [Signature.types, Prod.mk.injEq] at htypes
  exact ⟨t, ht, htypes⟩

/-- What happened apart from queries. -/
def History.withoutQueries (history : History) : History :=
  history.filter fun event => !event.isQuery

/-- What a run of a call does is the same however often signatures were queried before it. -/
def Plugin.IgnoresQueries (plugin : Plugin) (call : String) : Prop :=
  ∀ handler, plugin.handler = some handler → ∀ h h' : History,
    h.withoutQueries = h'.withoutQueries → handler.run h call = handler.run h' call

theorem withoutQueries_snoc_queried (history : History) (call : String)
    (answer : Option Signature) :
    History.withoutQueries (history ++ [.queried call answer]) = history.withoutQueries := by
  simp [History.withoutQueries, PluginEvent.isQuery]

theorem invocations_append (history events : History) :
    History.invocations (history ++ events) = history.invocations ++ events.invocations :=
  List.filter_append ..

@[simp] theorem invocations_snoc_queried (history : History) (call : String)
    (answer : Option Signature) :
    History.invocations (history ++ [.queried call answer]) = history.invocations := by
  simp [History.invocations, PluginEvent.isInvocation]

@[simp] theorem invocations_snoc_invoked (history : History) (call : String)
    (inputs slots : List CallValue) :
    History.invocations (history ++ [.invoked call inputs slots]) =
      history.invocations ++ [.invoked call inputs slots] := by
  simp [History.invocations, PluginEvent.isInvocation]

theorem outputSlots_congr {s t : Signature} (h : t.outputs = s.outputs) :
    t.outputSlots = s.outputSlots := by
  rw [Signature.outputSlots, h, Signature.outputSlots]

/-- Two runs that do the same end in the same way under signatures with the same outputs. -/
theorem runChecked_congr {handler : CallHandler} {s t : Signature} {history history' : History}
    {call : String} (hout : t.outputs = s.outputs)
    (hrun : handler.run history' call = handler.run history call)
    (inputs slots : List CallValue) :
    (runChecked handler t history' call inputs slots).result =
        (runChecked handler s history call inputs slots).result ∧
      (runChecked handler t history' call inputs slots).slots =
        (runChecked handler s history call inputs slots).slots := by
  unfold runChecked
  rw [hrun]
  cases handler.run history call inputs slots with
  | mk writes outcome =>
      cases outcome with
      | ok u => exact ⟨by simp only [Signature.checkOutputs, hout], rfl⟩
      | error reason => cases reason <;> exact ⟨rfl, rfl⟩

/-! ## Collecting and running -/

theorem callThrough_of_no_answer {plugin : Plugin} {history : History} {call : String}
    (h : plugin.answer? history call = none) (inputs : List CallValue) :
    ∃ asked, (asked = [] ∨ asked = [.queried call none]) ∧
      callThrough plugin history call inputs =
        (.error (.unsupportedCall call), history ++ asked) := by
  obtain ⟨asked, hasked, hs⟩ := PendingCall.start_of_no_answer h
  exact ⟨asked, hasked, by simp only [callThrough, hs]⟩

theorem callThrough_of_answer {plugin : Plugin} {history : History} {call : String}
    {s : Signature} (h : plugin.answer? history call = some s) (inputs : List CallValue) :
    callThrough plugin history call inputs =
      match expectTags .input s.inputs 0 inputs with
      | .ok () => PendingCall.invoke ⟨plugin, call, s, inputs⟩ (history ++ [.queried call (some s)])
      | .error fault =>
        (.error (.invalidArgument call fault), history ++ [.queried call (some s)]) := by
  simp only [callThrough, PendingCall.start_of_answer h, PendingCall.pushAll_eq,
    List.length_nil, List.nil_append]
  cases expectTags .input s.inputs 0 inputs with
  | ok u => rfl
  | error fault => rfl

theorem callThrough_of_input_fault {plugin : Plugin} {history : History} {call : String}
    {s : Signature} {inputs : List CallValue} {fault : ArgumentFault}
    (h : plugin.answer? history call = some s)
    (hi : checkTags .input s.inputs inputs = .error fault) :
    callThrough plugin history call inputs =
      (.error (.invalidArgument call fault), history ++ [.queried call (some s)]) := by
  rw [callThrough_of_answer h]
  unfold checkTags at hi
  cases he : expectTags .input s.inputs 0 inputs with
  | error first =>
      simp only [he, Except.error.injEq] at hi
      rw [hi]
  | ok u =>
      by_cases hlen : inputs.length = s.inputs.length
      · simp [he, hlen] at hi
      · simp only [he, hlen, if_false, Except.error.injEq] at hi
        rw [← hi]
        exact PendingCall.invoke_of_incomplete (c := ⟨plugin, call, s, inputs⟩) hlen _

/-! ## Both ways agree -/

/-- The result of a call that was built, with its outputs as values, is that of a call made at
once, and the handler ran in both equally often and on the same values. -/
structure Agrees (history : History) (call : String) (inputs slots : List CallValue)
    (built : Except HostError CallOutputs × History) (direct : CallReport) : Prop where
  result_eq : built.1.map CallOutputs.values = direct.result.map fun _ => direct.slots
  runs_eq : ∃ runs, (runs = [] ∨ runs = [.invoked call inputs slots]) ∧
    built.2.invocations = history.invocations ++ runs ∧
    direct.history.invocations = history.invocations ++ runs

theorem agrees_of_error {history : History} {call : String} {inputs slots : List CallValue}
    {e : HostError} {asked asked' : History} (h : asked.invocations = [])
    (h' : asked'.invocations = []) :
    Agrees history call inputs slots (.error e, history ++ asked)
      ⟨.error e, slots, history ++ asked'⟩ where
  result_eq := rfl
  runs_eq := by
    refine ⟨[], .inl rfl, ?_, ?_⟩
    · rw [invocations_append, h]
    · rw [invocations_append, h']

theorem agrees_of_no_answer {plugin : Plugin} {history : History} {call : String}
    (h : plugin.answer? history call = none) (inputs slots : List CallValue) :
    Agrees history call inputs slots (callThrough plugin history call inputs)
      (callWith plugin history call inputs slots) := by
  have hsilent : ∀ asked : History, asked = [] ∨ asked = [.queried call none] →
      asked.invocations = [] := by
    rintro asked (rfl | rfl)
    · rfl
    · rfl
  obtain ⟨asked, hasked, hbuilt⟩ := callThrough_of_no_answer h inputs
  obtain ⟨asked', hasked', hdirect⟩ := callWith_of_no_answer h inputs slots
  rw [hbuilt, hdirect]
  exact agrees_of_error (hsilent asked hasked) (hsilent asked' hasked')

/-- A wrong or surplus input is refused while it is collected, a missing one when the call runs;
the check of the whole list has the same fault. -/
theorem agrees_of_input_fault {plugin : Plugin} {history : History} {call : String}
    {s : Signature} {inputs : List CallValue} {fault : ArgumentFault}
    (h : plugin.answer? history call = some s)
    (hi : checkTags .input s.inputs inputs = .error fault) (slots : List CallValue) :
    Agrees history call inputs slots (callThrough plugin history call inputs)
      (callWith plugin history call inputs slots) := by
  rw [callThrough_of_input_fault h hi, callWith_of_input_fault h hi]
  exact agrees_of_error rfl rfl

theorem fits_of_answersAlways {plugin : Plugin} {call : String} {s : Signature}
    {inputs : List CallValue} (hsteady : plugin.AnswersAlways call (some s))
    (hin : inputs.map CallValue.tag = s.inputs) (history : History) :
    ∃ t, plugin.answer? history call = some t ∧ t.outputs = s.outputs ∧
      t.Fits inputs s.outputSlots := by
  obtain ⟨t, ht, htin, htout⟩ := hsteady.some history
  refine ⟨t, ht, htout, ?_⟩
  rw [Signature.Fits, hin, s.tag_outputSlots]
  exact ⟨htin.symm, htout.symm⟩

/-- A call with the right inputs runs the handler, and one query more before it does not change how
it ends. -/
theorem callWith_after_query {plugin : Plugin} {call : String} {s : Signature}
    {inputs : List CallValue} (hsteady : plugin.AnswersAlways call (some s))
    (hignores : plugin.IgnoresQueries call) (hin : inputs.map CallValue.tag = s.inputs)
    (history : History) (t : Signature) :
    let direct := callWith plugin history call inputs s.outputSlots
    let later := callWith plugin (history ++ [.queried call (some t)]) call inputs s.outputSlots
    later.result = direct.result ∧ later.slots = direct.slots ∧
      direct.history.invocations = history.invocations ++ [.invoked call inputs s.outputSlots] ∧
      later.history.invocations = history.invocations ++ [.invoked call inputs s.outputSlots] := by
  obtain ⟨u, hu, huout, hfits⟩ := fits_of_answersAlways hsteady hin history
  obtain ⟨v, hv, hvout, hfits'⟩ :=
    fits_of_answersAlways hsteady hin (history ++ [.queried call (some t)])
  obtain ⟨handler, hk, hdirect⟩ := callWith_of_fits hu hfits
  obtain ⟨handler', hk', hlater⟩ := callWith_of_fits hv hfits'
  obtain rfl : handler' = handler := Option.some.inj (hk'.symm.trans hk)
  have hseen : History.withoutQueries
      (history ++ [.queried call (some t)] ++ [.queried call (some v)]) =
      History.withoutQueries (history ++ [.queried call (some u)]) := by
    simp only [withoutQueries_snoc_queried]
  obtain ⟨hresult, hslots⟩ := runChecked_congr (hvout.trans huout.symm)
    (hignores handler' hk _ _ hseen) inputs s.outputSlots
  rw [hdirect, hlater]
  refine ⟨hresult, hslots, ?_, ?_⟩
  · simp only [history_runChecked, invocations_snoc_invoked, invocations_snoc_queried]
  · simp only [history_runChecked, invocations_snoc_invoked, invocations_snoc_queried]

theorem agrees_of_inputs {plugin : Plugin} {history : History} {call : String} {s : Signature}
    {inputs : List CallValue} (hsteady : plugin.AnswersAlways call (some s))
    (hignores : plugin.IgnoresQueries call) (hin : inputs.map CallValue.tag = s.inputs) :
    Agrees history call inputs s.outputSlots (callThrough plugin history call inputs)
      (callWith plugin history call inputs s.outputSlots) := by
  obtain ⟨t, ht, htin, htout⟩ := hsteady.some history
  have hcollect : expectTags .input t.inputs 0 inputs = .ok () :=
    expectTags_of_tags_eq (hin.trans htin.symm) .input
  have hlen : inputs.length = t.inputs.length := length_of_tags_eq (hin.trans htin.symm)
  have hinvoke := PendingCall.invoke_of_complete (c := ⟨plugin, call, t, inputs⟩) hlen
    (history ++ [.queried call (some t)])
  obtain ⟨hresult, hslots, hdirect, hlater⟩ :=
    callWith_after_query hsteady hignores hin history t
  simp only [outputSlots_congr htout] at hinvoke
  rw [callThrough_of_answer ht, hcollect]
  simp only [hinvoke]
  refine ⟨?_, [.invoked call inputs s.outputSlots], .inr rfl, hlater, hdirect⟩
  rw [← hresult, ← hslots]
  generalize callWith plugin (history ++ [.queried call (some t)]) call inputs s.outputSlots =
    later
  cases later.result with
  | ok _ => rfl
  | error _ => rfl

/-- A call that is built value by value and one that is made with all its values at once agree, for
a plugin that does not drift and any values: in the outputs or in the cause of failure, and in how
often and on what the handler runs. -/
theorem callThrough_agrees_callWith {plugin : Plugin} {call : String} {answer : Option Signature}
    (hsteady : plugin.AnswersAlways call answer) (hignores : plugin.IgnoresQueries call)
    (history : History) (inputs slots : List CallValue)
    (hslots : ∀ s, answer = some s → slots = s.outputSlots) :
    Agrees history call inputs slots (callThrough plugin history call inputs)
      (callWith plugin history call inputs slots) := by
  cases answer with
  | none => exact agrees_of_no_answer (hsteady.none history) inputs slots
  | some s =>
      obtain ⟨t, ht, htin, _⟩ := hsteady.some history
      cases hi : checkTags .input t.inputs inputs with
      | error fault => exact agrees_of_input_fault ht hi slots
      | ok u =>
          have hin : inputs.map CallValue.tag = s.inputs := by
            rw [← htin]
            exact (checkTags_eq_ok_iff .input t.inputs inputs).mp hi
          rw [hslots s rfl]
          exact agrees_of_inputs hsteady hignores hin

/-- A handler of one call that writes its inputs to its slots. -/
def CallHandler.echo (call : String) (types : List TypeTag) : CallHandler where
  signature name := if name = call then some fun _ => some ⟨types, types, false, false⟩ else none
  run _ _ inputs _ := ⟨inputs.mapIdx Prod.mk, .ok ()⟩

theorem echo_answersAlways (call : String) (types : List TypeTag) :
    (CallHandler.echo call types).plugin.AnswersAlways call
      (some ⟨types, types, false, false⟩) := by
  intro history
  simp [Plugin.answer?, CallHandler.plugin, CallHandler.echo]

theorem echo_ignoresQueries (call : String) (types : List TypeTag) :
    (CallHandler.echo call types).plugin.IgnoresQueries call := by
  intro handler h _ _ _
  cases h
  rfl

theorem echo_callThrough_agrees :
    let plugin := (CallHandler.echo "echo" [.int64, .string]).plugin
    plugin.AnswersAlways "echo" (some ⟨[.int64, .string], [.int64, .string], false, false⟩) ∧
      plugin.IgnoresQueries "echo" ∧
      Agrees [] "echo" [.int64 41, .string "a"] [.int64 0, .string ""]
        (callThrough plugin [] "echo" [.int64 41, .string "a"])
        (callWith plugin [] "echo" [.int64 41, .string "a"] [.int64 0, .string ""]) := by
  have hsteady := echo_answersAlways "echo" [.int64, .string]
  have hignores := echo_ignoresQueries "echo" [.int64, .string]
  refine ⟨hsteady, hignores, callThrough_agrees_callWith hsteady hignores [] _ _ ?_⟩
  intro s hs
  cases hs
  rfl

end PluginHost
