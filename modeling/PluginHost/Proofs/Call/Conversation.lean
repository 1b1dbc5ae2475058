import PluginHost.Call.Caller
import PluginHost.Proofs.Call.Building

/-! # Conversations with a plugin

However a plugin changes its answers and whatever its caller does, its handler only ever runs on
values of the types that it declared last. -/

namespace PluginHost

/-! ## What happens between two moments -/

/-- The events after a moment are made of exchanges, each in the light of all before it. -/
inductive Conversation (plugin : Plugin) (start : History) : List PluginEvent → Prop where
  | nil : Conversation plugin start []
  | snoc {events new} (h : Conversation plugin start events)
      (hnew : Exchange plugin (start ++ events) new) : Conversation plugin start (events ++ new)

/-- A run is the last event of its exchange, directly after its query. -/
theorem Exchange.run_eq {plugin : Plugin} {history : History} {new before after : List PluginEvent}
    {call : String} {inputs slots : List CallValue} (h : Exchange plugin history new)
    (hnew : new = before ++ .invoked call inputs slots :: after) :
    ∃ s, before = [.queried call (some s)] ∧ after = [] ∧
      plugin.answer? history call = some s ∧ s.Fits inputs slots := by
  cases h with
  | silent => simp at hnew
  | asked name answer h =>
      rcases List.cons_eq_append_iff.mp hnew with ⟨rfl, hcons⟩ | ⟨rest, rfl, hrest⟩
      · cases hcons
      · simp at hrest
  | ran name s ins outs h hf =>
      rcases List.cons_eq_append_iff.mp hnew with ⟨rfl, hcons⟩ | ⟨rest, rfl, hrest⟩
      · cases hcons
      · rcases List.cons_eq_append_iff.mp hrest with ⟨rfl, hcons⟩ | ⟨more, rfl, hmore⟩
        · cases hcons
          exact ⟨s, rfl, rfl, h, hf⟩
        · simp at hmore

/-- Every run in a conversation directly follows a query, and its values fit the answer. -/
theorem Conversation.run_follows_query {plugin : Plugin} {start : History}
    {events : List PluginEvent} (h : Conversation plugin start events) :
    ∀ before call inputs slots after, events = before ++ .invoked call inputs slots :: after →
      ∃ earlier s, before = earlier ++ [.queried call (some s)] ∧
        plugin.answer? (start ++ earlier) call = some s ∧ s.Fits inputs slots := by
  induction h with
  | nil =>
      intro before call inputs slots after h
      simp at h
  | @snoc events new hevents hnew ih =>
      intro before call inputs slots after h
      rcases List.append_eq_append_iff.mp h with ⟨more, rfl, hmore⟩ | ⟨rest, hrest, hcons⟩
      · -- the run belongs to the last exchange
        obtain ⟨s, rfl, _, hs, hf⟩ := hnew.run_eq hmore
        exact ⟨events, s, rfl, hs, hf⟩
      · cases rest with
        | nil =>
            have hfirst : new = [] ++ .invoked call inputs slots :: after := hcons.symm
            obtain ⟨s, hquery, _⟩ := hnew.run_eq hfirst
            cases hquery
        | cons event rest =>
            cases hcons
            exact ih before call inputs slots rest hrest

theorem latestAnswer?_snoc_queried (history : History) (call : String)
    (answer : Option Signature) :
    History.latestAnswer? (history ++ [.queried call answer]) call = some answer := by
  simp [History.latestAnswer?]

/-! ## Steps of a caller -/

namespace Caller

/-- All calls under construction are calls to the plugin. -/
def OwnedBy (b : Caller) (plugin : Plugin) : Prop :=
  ∀ c ∈ b.calls, c.plugin = plugin

theorem ownedBy_fresh (plugin : Plugin) (history : History) : (fresh history).OwnedBy plugin := by
  intro c hc
  cases hc

/-- What is appended to a call does not change whose call it is. -/
theorem OwnedBy.build {b : Caller} {plugin : Plugin} (hb : b.OwnedBy plugin) (place : Nat)
    {append : PendingCall → Except HostError PendingCall}
    (h : ∀ c next, append c = .ok next → next.plugin = c.plugin) :
    (b.build place append).OwnedBy plugin := by
  intro d hd
  unfold Caller.build at hd
  dsimp only at hd
  split at hd
  · exact hb d hd
  · rename_i c hget
    split at hd
    · rename_i next hnext
      rcases List.mem_or_eq_of_mem_set hd with hd | rfl
      · exact hb d hd
      · rw [h c d hnext]
        exact hb c (List.mem_of_getElem? hget)
    · exact hb d (List.mem_of_mem_eraseIdx hd)

theorem OwnedBy.step {b : Caller} {plugin : Plugin} (hb : b.OwnedBy plugin) (step : CallerStep) :
    (b.step plugin step).OwnedBy plugin := by
  cases step with
  | callWith call inputs slots => exact hb
  | start call =>
      intro c hc
      cases h : plugin.answer? b.history call with
      | none =>
          obtain ⟨asked, _, hs⟩ := PendingCall.start_of_no_answer h
          simp only [Caller.step, beginCall, hs] at hc
          exact hb c hc
      | some s =>
          simp only [Caller.step, beginCall, PendingCall.start_of_answer h, List.mem_append,
            List.mem_singleton] at hc
          rcases hc with hc | rfl
          · exact hb c hc
          · rfl
  | arg place tag value => exact hb.build place fun _ _ h => PendingCall.plugin_of_pushAs h
  | argValue place value => exact hb.build place fun _ _ h => PendingCall.plugin_of_pushAs h
  | invoke place =>
      intro d hd
      simp only [Caller.step, complete] at hd
      split at hd
      · exact hb d hd
      · split at hd
        · exact hb d (List.mem_of_mem_eraseIdx hd)
        · exact hb d (List.mem_of_mem_eraseIdx hd)
  | take place tag => exact hb
  | takeValue place tag => exact hb
  | finish place => exact hb
  | extract place tags => exact hb
  | intoValues place => exact hb

theorem OwnedBy.run {b : Caller} {plugin : Plugin} (hb : b.OwnedBy plugin)
    (steps : List CallerStep) : (b.run plugin steps).OwnedBy plugin := by
  induction steps generalizing b with
  | nil => exact hb
  | cons step steps ih => exact ih (hb.step step)

theorem history_beginCall (b : Caller) (plugin : Plugin) (call : String) :
    (b.beginCall plugin call).history = (negotiate plugin b.history call).2 := by
  unfold beginCall PendingCall.start
  rcases negotiate plugin b.history call with ⟨result, after⟩
  cases result <;> rfl

theorem history_complete {b : Caller} {place : Nat} {c : PendingCall}
    (h : b.calls[place]? = some c) :
    (b.complete place).history = (c.invoke b.history).2 := by
  rcases hi : c.invoke b.history with ⟨result, after⟩
  cases result with
  | ok o => simp only [complete, h, hi]
  | error e => simp only [complete, h, hi]

/-- A step runs the handler once, on the values of the checked call that it makes, if it makes one
and the plugin admits it. Otherwise the step does not run the handler. -/
def RunsAdmitted (plugin : Plugin) (b : Caller) (step : CallerStep)
    (new : List PluginEvent) : Prop :=
  (∃ call inputs slots, b.request? step = some (call, inputs, slots) ∧
      plugin.Admits b.history call inputs slots ∧
      History.invocations new = [.invoked call inputs slots]) ∨
    ((∀ call inputs slots, b.request? step = some (call, inputs, slots) →
        ¬ plugin.Admits b.history call inputs slots) ∧
      History.invocations new = [])

theorem runsAdmitted_of_no_request {plugin : Plugin} {b : Caller} {step : CallerStep}
    {new : List PluginEvent} (h : b.request? step = none)
    (hnew : History.invocations new = []) : RunsAdmitted plugin b step new := by
  refine .inr ⟨?_, hnew⟩
  intro call inputs slots hrequest
  rw [h] at hrequest
  cases hrequest

theorem runsAdmitted_of_request {plugin : Plugin} {b : Caller} {step : CallerStep}
    {new : List PluginEvent} {call : String} {inputs slots : List CallValue}
    (h : b.request? step = some (call, inputs, slots))
    (hnew : plugin.Admits b.history call inputs slots ∧
        History.invocations new = [.invoked call inputs slots] ∨
      ¬ plugin.Admits b.history call inputs slots ∧ History.invocations new = []) :
    RunsAdmitted plugin b step new := by
  rcases hnew with ⟨hadmits, hruns⟩ | ⟨hrefused, hruns⟩
  · exact .inl ⟨call, inputs, slots, h, hadmits, hruns⟩
  · refine .inr ⟨?_, hruns⟩
    intro call' inputs' slots' hrequest
    rw [h] at hrequest
    cases hrequest
    exact hrefused

/-- One step adds one exchange to the history. -/
theorem step_exchange {b : Caller} {plugin : Plugin} (hb : b.OwnedBy plugin)
    (step : CallerStep) :
    ∃ new, (b.step plugin step).history = b.history ++ new ∧ Exchange plugin b.history new ∧
      RunsAdmitted plugin b step new := by
  have hsilent : (b.step plugin step).history = b.history → b.request? step = none →
      ∃ new, (b.step plugin step).history = b.history ++ new ∧ Exchange plugin b.history new ∧
        RunsAdmitted plugin b step new := by
    intro hsame hnone
    exact ⟨[], by rw [hsame, List.append_nil], .silent, runsAdmitted_of_no_request hnone rfl⟩
  cases step with
  | callWith call inputs slots =>
      obtain ⟨new, hnew, hexchange, hruns⟩ := callWith_exchange plugin b.history call inputs slots
      exact ⟨new, hnew, hexchange, runsAdmitted_of_request rfl hruns⟩
  | start call =>
      obtain ⟨new, hnew, hexchange, hruns⟩ := negotiate_exchange plugin b.history call
      exact ⟨new, by rw [Caller.step, history_beginCall, hnew], hexchange,
        runsAdmitted_of_no_request rfl hruns⟩
  | arg place tag value => exact hsilent rfl rfl
  | argValue place value => exact hsilent rfl rfl
  | invoke place =>
      cases hget : b.calls[place]? with
      | none =>
          apply hsilent
          · simp only [Caller.step, complete, hget]
          · simp only [request?, hget]
      | some c =>
          have hhistory := history_complete hget
          by_cases hfull : c.inputs.length = c.signature.inputs.length
          · rw [PendingCall.invoke_of_complete hfull, hb c (List.mem_of_getElem? hget)] at hhistory
            obtain ⟨new, hnew, hexchange, hruns⟩ :=
              callWith_exchange plugin b.history c.call c.inputs c.signature.outputSlots
            refine ⟨new, hhistory.trans hnew, hexchange, ?_⟩
            exact runsAdmitted_of_request (by simp only [request?, hget, hfull, if_true]) hruns
          · rw [PendingCall.invoke_of_incomplete hfull] at hhistory
            exact hsilent hhistory (by simp only [request?, hget, hfull, if_false])
  | take place tag => exact hsilent rfl rfl
  | takeValue place tag => exact hsilent rfl rfl
  | finish place => exact hsilent rfl rfl
  | extract place tags => exact hsilent rfl rfl
  | intoValues place => exact hsilent rfl rfl

/-- All steps together add a conversation. -/
theorem run_conversation {plugin : Plugin} {start : History} (steps : List CallerStep)
    {b : Caller} {events : List PluginEvent} (hb : b.OwnedBy plugin)
    (hhistory : b.history = start ++ events) (h : Conversation plugin start events) :
    ∃ all, (b.run plugin steps).history = start ++ all ∧ Conversation plugin start all := by
  induction steps generalizing b events with
  | nil => exact ⟨events, hhistory, h⟩
  | cons step steps ih =>
      obtain ⟨new, hnew, hexchange, _⟩ := step_exchange hb step
      rw [hhistory] at hexchange
      refine ih (hb.step step) ?_ (h.snoc hexchange)
      rw [hnew, hhistory, List.append_assoc]

/-- Each run of the handler is on inputs and slots of exactly the types that the plugin declared
when it was last asked for that call. Only a step that makes a checked call runs the handler: once
if the negotiation and the checks succeed, and not at all otherwise. -/
theorem handler_runs_under_latest_signature (plugin : Plugin) (start : History)
    (steps : List CallerStep) :
    ∃ events, ((fresh start).run plugin steps).history = start ++ events ∧
      (∀ before call inputs slots after, events = before ++ .invoked call inputs slots :: after →
        ∃ earlier s, before = earlier ++ [.queried call (some s)] ∧
          plugin.answer? (start ++ earlier) call = some s ∧
          History.latestAnswer? (start ++ before) call = some (some s) ∧
          inputs.map CallValue.tag = s.inputs ∧ slots.map CallValue.tag = s.outputs) ∧
      ∀ done step rest, steps = done ++ step :: rest →
        let b := (fresh start).run plugin done
        ∃ new, (b.step plugin step).history = b.history ++ new ∧
          RunsAdmitted plugin b step new := by
  have howned := ownedBy_fresh plugin start
  obtain ⟨events, hevents, hconversation⟩ :=
    run_conversation steps howned (List.append_nil start).symm .nil
  refine ⟨events, hevents, ?_, ?_⟩
  · intro before call inputs slots after hsplit
    obtain ⟨earlier, s, rfl, hs, hf⟩ :=
      hconversation.run_follows_query before call inputs slots after hsplit
    refine ⟨earlier, s, rfl, hs, ?_, hf.1, hf.2⟩
    rw [← List.append_assoc, latestAnswer?_snoc_queried]
  · intro done step rest _
    obtain ⟨new, hnew, _, hruns⟩ := step_exchange (howned.run done) step
    exact ⟨new, hnew, hruns⟩

end Caller

end PluginHost
