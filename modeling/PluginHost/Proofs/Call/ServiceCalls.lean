import PluginHost.Proofs.Call.HandingOut
import PluginHost.Proofs.Call.ServiceRecords

/-! # Well-known calls and what a plugin declares

A well-known call is never compared with its agreed signature. All the same it only succeeds under
this one: the inputs are checked as they are collected, and the outputs as they are copied back. -/

namespace PluginHost

/-- A plugin is queried twice for a call, the second time after the first answer. -/
structure Plugin.AnswersTwice (plugin : Plugin) (history : History) (call : String)
    (s t : Signature) : Prop where
  first : plugin.answer? history call = some s
  second : plugin.answer? (history ++ [.queried call (some s)]) call = some t

/-- A history to which two queries for a call were added. -/
def History.queriedTwice (history : History) (call : String) (s t : Signature) : History :=
  history ++ [.queried call (some s)] ++ [.queried call (some t)]

namespace WellKnownCall

/-- The output slots of a call with the agreed signature. -/
def slots (w : WellKnownCall) : List CallValue :=
  w.outputs.map CallValue.empty

def run (w : WellKnownCall) (handler : CallHandler) (asked : History) (texts : List String) :
    HandlerRun :=
  handler.run asked w.name (texts.map .string) w.slots

/-- The run does not fail, and every slot keeps the type that was agreed. -/
def Completes (w : WellKnownCall) (handler : CallHandler) (asked : History)
    (texts : List String) : Prop :=
  (w.run handler asked texts).outcome = .ok () ∧
    ((w.run handler asked texts).apply w.slots).map CallValue.tag = w.outputs

/-- What becomes of a well-known call on texts: of its answer, of its two queries and of its one
run. -/
structure Settles {α : Type} (w : WellKnownCall) (values : α → List CallValue) (plugin : Plugin)
    (history : History) (texts : List String) (report : Except HostError α × History) :
    Prop where
  /-- The call succeeds under the agreed signature only, and then exactly if its run does. -/
  isOk_iff : (∃ answer, report.1 = .ok answer) ↔
    ∃ s t handler, plugin.AnswersTwice history w.name s t ∧ plugin.handler = some handler ∧
      s.types = (w.inputs, w.outputs) ∧ t.types = (w.inputs, w.outputs) ∧
      w.Completes handler (history.queriedTwice w.name s t) texts
  /-- The answer is what the run left in the slots, and the run was given the texts. -/
  answer_eq : ∀ answer, report.1 = .ok answer → ∀ s t handler,
    plugin.AnswersTwice history w.name s t → plugin.handler = some handler →
      values answer = (w.run handler (history.queriedTwice w.name s t) texts).apply w.slots ∧
      report.2 = history.queriedTwice w.name s t ++
        [.invoked w.name (texts.map .string) w.slots]
  /-- Under other inputs nothing is run. -/
  other_inputs : ∀ s, plugin.answer? history w.name = some s → s.inputs ≠ w.inputs →
    ∃ fault, report = (.error (.invalidArgument w.name fault),
      history ++ [.queried w.name (some s)])
  /-- Nor is it if the second answer is another one than the first. -/
  other_answer : ∀ s t, plugin.AnswersTwice history w.name s t → s.inputs = w.inputs →
    t.types ≠ s.types →
      ∃ fault, report = (.error (.invalidArgument w.name fault),
        history.queriedTwice w.name s t)
  /-- Under other outputs there is one run. If it succeeds, the call fails after it. -/
  other_outputs : ∀ s t, plugin.AnswersTwice history w.name s t → s.inputs = w.inputs →
    t.types = s.types → s.outputs ≠ w.outputs →
      ∃ handler e, plugin.handler = some handler ∧ report =
        (.error e, history.queriedTwice w.name s t ++
          [.invoked w.name (texts.map .string) s.outputSlots]) ∧
        let run := handler.run (history.queriedTwice w.name s t) w.name (texts.map .string)
          s.outputSlots
        run.outcome = .ok () → (run.apply s.outputSlots).map CallValue.tag = s.outputs →
          CallOutputs.SaysCompleted w.name e

end WellKnownCall

/-! ## Calls on given inputs -/

section

variable {plugin : Plugin} {history : History} {call : String} {inputs : List CallValue}
  {s t : Signature} {tags : List TypeTag}

theorem callTyped_of_error {e : HostError} {later : History}
    (h : callThrough plugin history call inputs = (.error e, later)) :
    callTyped plugin history call inputs tags = (.error e, later) := by
  simp only [callTyped, h]

theorem callTyped_of_other_inputs (hs : plugin.answer? history call = some s)
    (hne : inputs.map CallValue.tag ≠ s.inputs) (tags : List TypeTag) :
    ∃ fault, callTyped plugin history call inputs tags =
      (.error (.invalidArgument call fault), history ++ [.queried call (some s)]) := by
  cases hi : checkTags .input s.inputs inputs with
  | ok u => exact absurd ((checkTags_eq_ok_iff _ _ _).mp hi) hne
  | error fault => exact ⟨fault, callTyped_of_error (callThrough_of_input_fault hs hi)⟩

theorem callTyped_of_not_fits (h : plugin.AnswersTwice history call s t)
    (hinputs : inputs.map CallValue.tag = s.inputs) (hne : ¬ t.Fits inputs s.outputSlots)
    (tags : List TypeTag) :
    ∃ fault, callTyped plugin history call inputs tags =
      (.error (.invalidArgument call fault), history.queriedTwice call s t) := by
  obtain ⟨fault, hcall⟩ := callWith_of_not_fits h.second hne
  refine ⟨fault, callTyped_of_error ?_⟩
  rw [callThrough_of_inputs h.first hinputs, hcall]
  rfl

/-- A call whose inputs fit both answers is run once. -/
theorem callThrough_of_fits (h : plugin.AnswersTwice history call s t)
    (hinputs : inputs.map CallValue.tag = s.inputs) (hfits : t.Fits inputs s.outputSlots) :
    ∃ handler, plugin.handler = some handler ∧
      callThrough plugin history call inputs =
        let report := runChecked handler t (history.queriedTwice call s t) call inputs
          s.outputSlots
        (report.result.map fun _ => ⟨call, s, report.slots, 0⟩, report.history) := by
  obtain ⟨handler, hhandler, hcall⟩ := callWith_of_fits h.second hfits
  refine ⟨handler, hhandler, ?_⟩
  rw [callThrough_of_inputs h.first hinputs, hcall]
  rfl

theorem callTyped_of_other_outputs (h : plugin.AnswersTwice history call s t)
    (hinputs : inputs.map CallValue.tag = s.inputs) (hfits : t.Fits inputs s.outputSlots)
    (hne : tags ≠ s.outputs) :
    ∃ handler e, plugin.handler = some handler ∧
      callTyped plugin history call inputs tags =
        (.error e, history.queriedTwice call s t ++ [.invoked call inputs s.outputSlots]) ∧
      let run := handler.run (history.queriedTwice call s t) call inputs s.outputSlots
      run.outcome = .ok () → (run.apply s.outputSlots).map CallValue.tag = s.outputs →
        CallOutputs.SaysCompleted call e := by
  obtain ⟨handler, hhandler, hcall⟩ := callThrough_of_fits h hinputs hfits
  let run := handler.run (history.queriedTwice call s t) call inputs s.outputSlots
  have hsuccess : (runChecked handler t (history.queriedTwice call s t) call inputs
      s.outputSlots).result = .ok () ↔
      run.outcome = .ok () ∧ (run.apply s.outputSlots).map CallValue.tag = s.outputs := by
    rw [runChecked_eq_ok_iff, ← hfits.2, s.tag_outputSlots]
  cases hresult : (runChecked handler t (history.queriedTwice call s t) call inputs
      s.outputSlots).result with
  | error e =>
      simp only [hresult, history_runChecked] at hcall
      refine ⟨handler, e, hhandler, callTyped_of_error hcall, fun hok htags => ?_⟩
      cases hresult.symm.trans (hsuccess.mpr ⟨hok, htags⟩)
  | ok u =>
      obtain ⟨_, htags⟩ := hsuccess.mp hresult
      simp only [hresult, slots_runChecked, history_runChecked] at hcall
      have hleft : CallOutputs.Left call s 0 ⟨call, s, run.apply s.outputSlots, 0⟩ :=
        ⟨rfl, rfl, rfl, Nat.zero_le _, htags⟩
      obtain ⟨e, hextract, hsays⟩ := hleft.extract_refused tags hne
      refine ⟨handler, e, hhandler, ?_, fun _ _ => hsays⟩
      simp only [callTyped, hcall, Except.map]
      exact Prod.ext hextract rfl

end

/-! ## Calls on texts -/

namespace WellKnownCall

variable {α : Type} {w : WellKnownCall} {plugin : Plugin} {history : History}
  {texts : List String}

theorem outputSlots_of_types {s : Signature} (h : s.types = (w.inputs, w.outputs)) :
    s.outputSlots = w.slots :=
  congrArg (List.map CallValue.empty) (congrArg Prod.snd h)

/-- A plugin fills the slots of a call exactly if it declares what was agreed, and its run
completes. -/
theorem fills_iff {values : List CallValue} {later : History}
    (htexts : (texts.map CallValue.string).map CallValue.tag = w.inputs)
    (hvalues : values.map CallValue.tag = w.outputs) :
    plugin.Fills history w.name (texts.map .string) values later ↔
      ∃ s t handler, plugin.AnswersTwice history w.name s t ∧ plugin.handler = some handler ∧
        s.types = (w.inputs, w.outputs) ∧ t.types = (w.inputs, w.outputs) ∧
        w.Completes handler (history.queriedTwice w.name s t) texts ∧
        values = (w.run handler (history.queriedTwice w.name s t) texts).apply w.slots ∧
        later = history.queriedTwice w.name s t ++
          [.invoked w.name (texts.map .string) w.slots] := by
  constructor
  · intro h
    cases h with
    | @mk s t handler asked hfirst hsecond hasked hinputs hfits hhandler hok happly htags =>
        have hs : s.types = (w.inputs, w.outputs) :=
          Prod.ext (hinputs.symm.trans htexts) (htags.symm.trans hvalues)
        have ht : t.types = (w.inputs, w.outputs) :=
          Prod.ext (hfits.1.symm.trans htexts)
            (hfits.2.symm.trans (s.tag_outputSlots.trans (congrArg Prod.snd hs)))
        rw [outputSlots_of_types hs] at hok happly ⊢
        subst hasked happly
        exact ⟨s, t, handler, ⟨hfirst, hsecond⟩, hhandler, hs, ht, ⟨hok, hvalues⟩, rfl, rfl⟩
  · rintro ⟨s, t, handler, hasked, hhandler, hs, ht, ⟨hok, htags⟩, rfl, rfl⟩
    have hslots := outputSlots_of_types hs
    rw [run] at hok htags ⊢
    rw [← hslots] at hok htags ⊢
    refine .mk hasked.first hasked.second rfl ?_ ⟨?_, ?_⟩ hhandler hok rfl ?_
    · exact htexts.trans (congrArg Prod.fst hs).symm
    · exact htexts.trans (congrArg Prod.fst ht).symm
    · rw [s.tag_outputSlots]
      exact congrArg Prod.snd (hs.trans ht.symm)
    · exact htags.trans (congrArg Prod.snd hs).symm

/-- A call on texts succeeds exactly if the plugin declares what was agreed, twice, and its run
completes. -/
theorem callTyped_isOk_iff (htexts : (texts.map CallValue.string).map CallValue.tag = w.inputs) :
    (∃ xs, (callTyped plugin history w.name (texts.map .string) w.outputs).1 = .ok xs) ↔
      ∃ s t handler, plugin.AnswersTwice history w.name s t ∧ plugin.handler = some handler ∧
        s.types = (w.inputs, w.outputs) ∧ t.types = (w.inputs, w.outputs) ∧
        w.Completes handler (history.queriedTwice w.name s t) texts := by
  constructor
  · rintro ⟨xs, hxs⟩
    obtain ⟨s, t, handler, hasked, hhandler, hs, ht, hrun, _⟩ :=
      (fills_iff htexts (CallValue.tags_ofTuple w.outputs xs)).mp
        (callTyped_eq_ok_iff.mp (Prod.ext hxs rfl))
    exact ⟨s, t, handler, hasked, hhandler, hs, ht, hrun⟩
  · rintro ⟨s, t, handler, hasked, hhandler, hs, ht, hrun⟩
    obtain ⟨xs, hxs⟩ := CallValue.exists_ofTuple hrun.2
    have hfills := (fills_iff htexts (CallValue.tags_ofTuple w.outputs xs)).mpr
      ⟨s, t, handler, hasked, hhandler, hs, ht, hrun, hxs.symm, rfl⟩
    exact ⟨xs, congrArg Prod.fst (callTyped_eq_ok_iff.mpr hfills)⟩

theorem ofTuple_of_callTyped {xs : TypeTag.Tuple w.outputs} {s t : Signature}
    {handler : CallHandler}
    (htexts : (texts.map CallValue.string).map CallValue.tag = w.inputs)
    (hxs : (callTyped plugin history w.name (texts.map .string) w.outputs).1 = .ok xs)
    (hasked : plugin.AnswersTwice history w.name s t) (hhandler : plugin.handler = some handler) :
    CallValue.ofTuple w.outputs xs =
        (w.run handler (history.queriedTwice w.name s t) texts).apply w.slots ∧
      (callTyped plugin history w.name (texts.map .string) w.outputs).2 =
        history.queriedTwice w.name s t ++ [.invoked w.name (texts.map .string) w.slots] := by
  obtain ⟨s', t', handler', hasked', hhandler', _, _, _, happly, hlater⟩ :=
    (fills_iff htexts (CallValue.tags_ofTuple w.outputs xs)).mp
      (callTyped_eq_ok_iff.mp (Prod.ext hxs rfl))
  -- A plugin has one handler and gives one answer to each of the two queries.
  cases hhandler.symm.trans hhandler'
  cases hasked.first.symm.trans hasked'.first
  cases hasked.second.symm.trans hasked'.second
  exact ⟨happly, hlater⟩

/-- A call whose tuple stands for its answer is settled by what the plugin declares. -/
theorem settles_of_callTyped {f : TypeTag.Tuple w.outputs → α} {values : α → List CallValue}
    (htexts : (texts.map CallValue.string).map CallValue.tag = w.inputs)
    (hvalues : ∀ xs, values (f xs) = CallValue.ofTuple w.outputs xs) :
    let call := callTyped plugin history w.name (texts.map .string) w.outputs
    w.Settles values plugin history texts (call.1.map f, call.2) := by
  intro call
  constructor
  case isOk_iff =>
    rw [← callTyped_isOk_iff htexts]
    constructor
    · rintro ⟨answer, hanswer⟩
      obtain ⟨xs, hxs, _⟩ := map_eq_ok.mp hanswer
      exact ⟨xs, hxs⟩
    · rintro ⟨xs, hxs⟩
      exact ⟨f xs, map_eq_ok.mpr ⟨xs, hxs, rfl⟩⟩
  case answer_eq =>
    intro answer hanswer s t handler hasked hhandler
    obtain ⟨xs, hxs, rfl⟩ := map_eq_ok.mp hanswer
    obtain ⟨happly, hlater⟩ := ofTuple_of_callTyped htexts hxs hasked hhandler
    exact ⟨(hvalues xs).trans happly, hlater⟩
  case other_inputs =>
    intro s hs hne
    obtain ⟨fault, hcall⟩ := callTyped_of_other_inputs hs
      (fun h => hne (h.symm.trans htexts)) w.outputs
    exact ⟨fault, by simp only [call, hcall]; rfl⟩
  case other_answer =>
    intro s t hasked hinputs hne
    have hfit : ¬ t.Fits (texts.map .string) s.outputSlots := by
      rintro ⟨hin, hout⟩
      refine hne (Prod.ext (hin.symm.trans (htexts.trans hinputs.symm)) ?_)
      exact hout.symm.trans s.tag_outputSlots
    obtain ⟨fault, hcall⟩ := callTyped_of_not_fits hasked
      (htexts.trans hinputs.symm) hfit w.outputs
    exact ⟨fault, by simp only [call, hcall]; rfl⟩
  case other_outputs =>
    intro s t hasked hinputs htypes hne
    have hin := htexts.trans hinputs.symm
    have hfits : t.Fits (texts.map .string) s.outputSlots :=
      ⟨hin.trans (congrArg Prod.fst htypes).symm,
        s.tag_outputSlots.trans (congrArg Prod.snd htypes).symm⟩
    obtain ⟨handler, e, hhandler, hcall, hsays⟩ :=
      callTyped_of_other_outputs hasked hin hfits hne.symm
    exact ⟨handler, e, hhandler, by simp only [call, hcall]; rfl, hsays⟩

end WellKnownCall

/-! ## What is run -/

def PluginEvent.call? : PluginEvent → Option (String × List CallValue)
  | .invoked call inputs _ => some (call, inputs)
  | _ => none

def History.calls (history : History) : List (String × List CallValue) :=
  history.filterMap PluginEvent.call?

theorem calls_eq (history : History) :
    history.calls = history.invocations.filterMap PluginEvent.call? := by
  rw [History.invocations, List.filterMap_filter, History.calls]
  congr 1
  funext event
  cases event <;> rfl

theorem calls_append (history events : History) :
    History.calls (history ++ events) = history.calls ++ events.calls :=
  List.filterMap_append

@[simp] theorem calls_snoc_queried (history : History) (call : String)
    (answer : Option Signature) :
    History.calls (history ++ [.queried call answer]) = history.calls := by
  simp [History.calls, PluginEvent.call?]

@[simp] theorem calls_snoc_invoked (history : History) (call : String)
    (inputs slots : List CallValue) :
    History.calls (history ++ [.invoked call inputs slots]) =
      history.calls ++ [(call, inputs)] := by
  simp [History.calls, PluginEvent.call?]

section

variable {plugin : Plugin} {history : History} {call : String} {inputs : List CallValue}

theorem callWith_runs (plugin : Plugin) (history : History) (call : String)
    (inputs slots : List CallValue) :
    (callWith plugin history call inputs slots).history.calls = history.calls ∨
      (callWith plugin history call inputs slots).history.calls =
        history.calls ++ [(call, inputs)] := by
  obtain ⟨events, hevents, _, ⟨_, hruns⟩ | ⟨_, hruns⟩⟩ :=
    callWith_exchange plugin history call inputs slots
  · right
    rw [hevents, calls_append, calls_eq events, hruns]
    rfl
  · left
    rw [hevents, calls_append, calls_eq events, hruns]
    exact List.append_nil _

theorem history_callTyped (plugin : Plugin) (history : History) (call : String)
    (inputs : List CallValue) (tags : List TypeTag) :
    (callTyped plugin history call inputs tags).2 =
      (callThrough plugin history call inputs).2 := by
  unfold callTyped
  split
  next h => rw [h]
  next h => rw [h]

theorem callTyped_runs (plugin : Plugin) (history : History) (call : String)
    (inputs : List CallValue) (tags : List TypeTag) :
    (callTyped plugin history call inputs tags).2.calls = history.calls ∨
      (callTyped plugin history call inputs tags).2.calls =
        history.calls ++ [(call, inputs)] := by
  rw [history_callTyped]
  cases hs : plugin.answer? history call with
  | none =>
      obtain ⟨asked, rfl | rfl, hcall⟩ := callThrough_of_no_answer hs inputs
      · left
        rw [hcall, List.append_nil]
      · left
        rw [hcall, calls_snoc_queried]
  | some s =>
      cases hinputs : checkTags .input s.inputs inputs with
      | error fault =>
          left
          rw [callThrough_of_input_fault hs hinputs, calls_snoc_queried]
      | ok u =>
          rw [callThrough_of_inputs hs ((checkTags_eq_ok_iff _ _ _).mp hinputs),
            ← calls_snoc_queried history call (some s)]
          exact callWith_runs plugin _ call inputs s.outputSlots

section

variable {α : Type} {tags : List TypeTag} {f : TypeTag.Tuple tags → α} {after : History}

theorem runs_of_answer {x : α}
    (h : ((callTyped plugin history call inputs tags).1.map f,
      (callTyped plugin history call inputs tags).2) = (.ok x, after)) :
    after.calls = history.calls ++ [(call, inputs)] := by
  obtain ⟨hresult, hafter⟩ := Prod.mk.inj h
  obtain ⟨xs, hxs, _⟩ := map_eq_ok.mp hresult
  cases callTyped_eq_ok_iff.mp (Prod.ext hxs hafter) with
  | mk _ _ hasked => simp [hasked, -List.append_assoc]

theorem runs_of_failure {e : HostError}
    (h : ((callTyped plugin history call inputs tags).1.map f,
      (callTyped plugin history call inputs tags).2) = (.error e, after)) :
    after.calls = history.calls ∨ after.calls = history.calls ++ [(call, inputs)] := by
  obtain ⟨_, rfl⟩ := Prod.mk.inj h
  exact callTyped_runs plugin history call inputs tags

end

end

/-! ## The well-known calls -/

/-- The values that a plugin leaves for one way of adding a connection. -/
def AddDetail.values (detail : AddDetail) : List CallValue :=
  [.string detail.prettyName, .string detail.description, .string detail.key, .uint detail.flags]

/-- Each well-known call succeeds exactly under its agreed signature, with what the plugin leaves in
its slots; under any other it is refused, before its run or after it. -/
theorem well_known_calls_settle (plugin : Plugin) (history : History)
    (serviceType detail : String) :
    WellKnownCall.serviceInfo.Settles ServiceInfo.values plugin history [serviceType]
        (serviceInfo plugin history serviceType) ∧
      WellKnownCall.addDetails.Settles (fun details => [.stringList details]) plugin history
        [serviceType] (serviceAddDetails plugin history serviceType) ∧
      WellKnownCall.addDetail.Settles AddDetail.values plugin history [serviceType, detail]
        (serviceAddDetail plugin history serviceType detail) := by
  refine ⟨?_, ?_, ?_⟩
  · exact WellKnownCall.settles_of_callTyped rfl fun _ => rfl
  · exact WellKnownCall.settles_of_callTyped rfl fun _ => rfl
  · exact WellKnownCall.settles_of_callTyped rfl fun _ => rfl

end PluginHost
