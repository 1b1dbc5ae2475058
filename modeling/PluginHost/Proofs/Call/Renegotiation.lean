import PluginHost.Proofs.Call.Building

/-! # Signatures that change under a call

The inputs of a call under construction are collected under one signature and used under another
one, which is queried when the call runs. The two are never compared. All the same the handler only
runs if they declare the same types. -/

namespace PluginHost

/-! ## Arguments -/

/-- An argument of a call: an element of a tag's type, or a value. -/
inductive Argument where
  | typed (tag : TypeTag) (x : tag.Carrier)
  | tagged (value : CallValue)

def Argument.value : Argument → CallValue
  | .typed tag x => .ofCarrier tag x
  | .tagged value => value

namespace PendingCall

def append (c : PendingCall) : Argument → Except HostError PendingCall
  | .typed tag x => c.pushTyped tag x
  | .tagged value => c.push value

def appendAll (c : PendingCall) : List Argument → Except HostError PendingCall
  | [] => .ok c
  | a :: rest =>
    match c.append a with
    | .ok next => next.appendAll rest
    | .error e => .error e

theorem append_eq_push (c : PendingCall) (a : Argument) : c.append a = c.push a.value := by
  cases a with
  | typed tag x => simp only [append, pushTyped, push, Argument.value, CallValue.tag_ofCarrier]
  | tagged value => rfl

theorem appendAll_eq_pushAll (c : PendingCall) (arguments : List Argument) :
    c.appendAll arguments = c.pushAll (arguments.map Argument.value) := by
  induction arguments generalizing c with
  | nil => rfl
  | cons a rest ih =>
      rw [appendAll, append_eq_push, List.map_cons, pushAll]
      cases c.push a.value with
      | ok next => exact ih next
      | error e => rfl

/-- What is collected under a signature has the types with which its inputs begin. -/
theorem collected {plugin : Plugin} {history after : History} {call : String}
    {begun c : PendingCall} {arguments : List Argument}
    (hstart : start plugin history call = (.ok begun, after))
    (hargs : begun.appendAll arguments = .ok c) :
    ∃ s, plugin.answer? history call = some s ∧
      c = ⟨plugin, call, s, arguments.map Argument.value⟩ ∧
      (arguments.map Argument.value).map CallValue.tag <+: s.inputs := by
  cases h : plugin.answer? history call with
  | none =>
      obtain ⟨asked, _, hs⟩ := start_of_no_answer h
      rw [hs] at hstart
      cases hstart
  | some s =>
      rw [start_of_answer h] at hstart
      cases hstart
      rw [appendAll_eq_pushAll, pushAll_eq_ok_iff] at hargs
      obtain ⟨hbegins, rfl⟩ := hargs
      exact ⟨s, rfl, rfl, hbegins⟩

/-! ## The second signature -/

/-- Values collected under one signature, with fresh slots of it, fit another signature exactly if
that declares the same types. -/
theorem fits_iff_same_types {s t : Signature} {inputs : List CallValue}
    (h : inputs.map CallValue.tag = s.inputs) :
    t.Fits inputs s.outputSlots ↔ t.inputs = s.inputs ∧ t.outputs = s.outputs := by
  rw [Signature.Fits, h, s.tag_outputSlots, eq_comm, @eq_comm _ s.outputs]

/-- The plugin still declares the types of a signature when it is asked for a call again. -/
def Keeps (plugin : Plugin) (history : History) (call : String) (s : Signature) : Prop :=
  ∃ t, plugin.answer? history call = some t ∧ t.inputs = s.inputs ∧ t.outputs = s.outputs

theorem admits_iff_keeps {plugin : Plugin} {later : History} {call : String} {s : Signature}
    {inputs : List CallValue} (h : inputs.map CallValue.tag = s.inputs) :
    plugin.Admits later call inputs s.outputSlots ↔ Keeps plugin later call s := by
  rw [admits_iff]
  constructor
  · rintro ⟨t, ht, hf⟩
    exact ⟨t, ht, (fits_iff_same_types h).mp hf⟩
  · rintro ⟨t, ht, hsame⟩
    exact ⟨t, ht, (fits_iff_same_types h).mpr hsame⟩

/-- What becomes of a call that was begun under a signature and whose inputs were collected under
it, when it is run at a later moment. -/
structure Outcome (plugin : Plugin) (call : String) (s : Signature) (inputs : List CallValue)
    (later : History) (result : Except HostError CallOutputs) (new : List PluginEvent) :
    Prop where
  /-- The handler runs on the collected inputs and on fresh slots. -/
  runs : inputs.length = s.inputs.length ∧ Keeps plugin later call s →
    History.invocations new = [.invoked call inputs s.outputSlots]
  fails : ¬ (inputs.length = s.inputs.length ∧ Keeps plugin later call s) →
    History.invocations new = [] ∧ ∃ e, result = .error e
  /-- Nothing is asked of the plugin if inputs are missing. -/
  incomplete : inputs.length ≠ s.inputs.length →
    new = [] ∧ ∃ fault, result = .error (.invalidArgument call fault)
  unanswered : inputs.length = s.inputs.length → plugin.answer? later call = none →
    result = .error (.unsupportedCall call)
  changed : ∀ t, inputs.length = s.inputs.length → plugin.answer? later call = some t →
    ¬ (t.inputs = s.inputs ∧ t.outputs = s.outputs) →
    ∃ fault, result = .error (.invalidArgument call fault)

theorem outcome_of_incomplete {plugin : Plugin} {call : String} {s : Signature}
    {inputs : List CallValue} (h : inputs.length ≠ s.inputs.length) (later : History) :
    Outcome plugin call s inputs later
      (.error (.invalidArgument call (.count .input inputs.length s.inputs.length))) [] where
  runs hkept := (h hkept.1).elim
  fails _ := ⟨rfl, _, rfl⟩
  incomplete _ := ⟨rfl, _, rfl⟩
  unanswered hfull := (h hfull).elim
  changed _ hfull := (h hfull).elim

section

variable {plugin : Plugin} {call : String} {s : Signature} {inputs : List CallValue}
  {later : History}

theorem invoke_eq_error {e : HostError} (hfull : inputs.length = s.inputs.length)
    (he : (callWith plugin later call inputs s.outputSlots).result = .error e) :
    (invoke ⟨plugin, call, s, inputs⟩ later).1 = .error e := by
  rw [invoke_of_complete (c := ⟨plugin, call, s, inputs⟩) hfull]
  simp only [he, Except.map]

theorem invoke_unanswered (hfull : inputs.length = s.inputs.length)
    (h : plugin.answer? later call = none) :
    (invoke ⟨plugin, call, s, inputs⟩ later).1 = .error (.unsupportedCall call) := by
  obtain ⟨asked, _, hc⟩ := callWith_of_no_answer h inputs s.outputSlots
  exact invoke_eq_error hfull (by rw [hc])

theorem invoke_changed {t : Signature} (h : inputs.map CallValue.tag = s.inputs)
    (ht : plugin.answer? later call = some t)
    (hne : ¬ (t.inputs = s.inputs ∧ t.outputs = s.outputs)) :
    ∃ fault, (invoke ⟨plugin, call, s, inputs⟩ later).1 =
      .error (.invalidArgument call fault) := by
  rw [← fits_iff_same_types h] at hne
  obtain ⟨fault, hc⟩ := callWith_of_not_fits ht hne
  exact ⟨fault, invoke_eq_error (length_of_tags_eq h) (by rw [hc])⟩

/-- Without the same types again the call fails. -/
theorem invoke_of_not_keeps (h : inputs.map CallValue.tag = s.inputs)
    (hlost : ¬ Keeps plugin later call s) :
    ∃ e, (invoke ⟨plugin, call, s, inputs⟩ later).1 = .error e := by
  cases ht : plugin.answer? later call with
  | none => exact ⟨_, invoke_unanswered (length_of_tags_eq h) ht⟩
  | some t =>
      obtain ⟨fault, hfault⟩ := invoke_changed h ht fun hsame => hlost ⟨t, ht, hsame⟩
      exact ⟨_, hfault⟩

theorem outcome_of_complete (h : inputs.map CallValue.tag = s.inputs) (later : History) :
    ∃ new, (invoke ⟨plugin, call, s, inputs⟩ later).2 = later ++ new ∧
      Outcome plugin call s inputs later (invoke ⟨plugin, call, s, inputs⟩ later).1 new := by
  have hfull : inputs.length = s.inputs.length := length_of_tags_eq h
  obtain ⟨new, hnew, _, hruns⟩ := callWith_exchange plugin later call inputs s.outputSlots
  rw [admits_iff_keeps h] at hruns
  refine ⟨new, ?_, ?_⟩
  · rw [invoke_of_complete (c := ⟨plugin, call, s, inputs⟩) hfull]
    exact hnew
  constructor
  case runs =>
    rintro ⟨_, hkept⟩
    rcases hruns with ⟨_, hruns⟩ | ⟨hlost, _⟩
    · exact hruns
    · exact (hlost hkept).elim
  case fails =>
    intro hno
    rcases hruns with ⟨hkept, _⟩ | ⟨hlost, hruns⟩
    · exact (hno ⟨hfull, hkept⟩).elim
    · exact ⟨hruns, invoke_of_not_keeps h hlost⟩
  case incomplete => exact fun hne => (hne hfull).elim
  case unanswered => exact fun _ hnone => invoke_unanswered hfull hnone
  case changed => exact fun t _ ht hne => invoke_changed h ht hne

end

/-- A call that was begun under one signature runs the handler exactly if its inputs are complete
and the plugin still declares the same types when it is asked again. Otherwise it fails without
running the handler, and the cause says what was missing. -/
theorem invoke_runs_iff_signature_kept {plugin : Plugin} {history after : History}
    {call : String} {begun c : PendingCall} {arguments : List Argument}
    (hstart : start plugin history call = (.ok begun, after))
    (hargs : begun.appendAll arguments = .ok c) (later : History) :
    ∃ s, plugin.answer? history call = some s ∧
      ∃ new, (c.invoke later).2 = later ++ new ∧
        Outcome plugin call s (arguments.map Argument.value) later (c.invoke later).1 new := by
  obtain ⟨s, hs, rfl, hbegins⟩ := collected hstart hargs
  refine ⟨s, hs, ?_⟩
  by_cases hfull : (arguments.map Argument.value).length = s.inputs.length
  · exact outcome_of_complete (hbegins.eq_of_length (by simpa using hfull)) later
  · rw [invoke_of_incomplete hfull]
    exact ⟨[], (List.append_nil later).symm, outcome_of_incomplete hfull later⟩

/-- A handler that declares one signature at first and another one from the first event on. -/
def drifting (first later : Signature) : CallHandler where
  signature _ := some fun history => some (if history.isEmpty then first else later)
  run _ _ _ _ := ⟨[], .ok ()⟩

theorem invoke_drifting :
    let first : Signature := ⟨[.string, .uint], [.uint], false, false⟩
    let plugin := (drifting first ⟨[.string, .uint], [.string], true, false⟩).plugin
    let arguments := [.typed .string "a", .tagged (.uint 7)]
    let c : PendingCall := ⟨plugin, "probe", first, [.string "a", .uint 7]⟩
    start plugin [] "probe" =
        (.ok ⟨plugin, "probe", first, []⟩, [.queried "probe" (some first)]) ∧
      appendAll ⟨plugin, "probe", first, []⟩ arguments = .ok c ∧
      ∃ s, plugin.answer? [] "probe" = some s ∧
        ∃ new, (c.invoke [.queried "probe" (some first)]).2 =
            [.queried "probe" (some first)] ++ new ∧
          Outcome plugin "probe" s (arguments.map Argument.value) [.queried "probe" (some first)]
            (c.invoke [.queried "probe" (some first)]).1 new :=
  ⟨rfl, rfl, invoke_runs_iff_signature_kept rfl rfl [.queried "probe" (some _)]⟩

end PendingCall

end PluginHost
