import PluginHost.Call.Caller
import PluginHost.Proofs.Call.TypedCall

/-! # Outputs that are handed out

Requests may be granted and refused in any order. All the same the outputs of a call are handed out
once each and in their order, and a request that is refused might as well not have been made. -/

namespace PluginHost

/-! ## Tuples -/

theorem CallValue.tags_ofTuple (tags : List TypeTag) (xs : TypeTag.Tuple tags) :
    (ofTuple tags xs).map tag = tags := by
  induction tags with
  | nil => rfl
  | cons tag tags ih =>
      obtain ⟨x, xs⟩ := xs
      rw [ofTuple, List.map_cons, tag_ofCarrier, ih xs]

/-- Values are the members of a tuple of their types. -/
theorem CallValue.exists_ofTuple {tags : List TypeTag} {values : List CallValue}
    (h : values.map tag = tags) : ∃ xs, values = ofTuple tags xs := by
  induction tags generalizing values with
  | nil => exact ⟨(), List.map_eq_nil_iff.mp h⟩
  | cons tag tags ih =>
      obtain ⟨v, rest, rfl, hv, hrest⟩ := List.map_eq_cons_iff.mp h
      obtain ⟨x, rfl⟩ := exists_ofCarrier hv
      obtain ⟨xs, rfl⟩ := ih hrest
      exact ⟨(x, xs), rfl⟩

/-! ## Requests -/

namespace OutputRequest

/-- The requests that were granted. -/
def granted : List OutputRequest → List (Except HostError CallValue) → List OutputRequest
  | request :: requests, .ok _ :: answers => request :: granted requests answers
  | _ :: requests, .error _ :: answers => granted requests answers
  | _, _ => []

/-- The request as a step of a caller. -/
def step (place : Nat) : OutputRequest → CallerStep
  | .typed tag => .take place tag
  | .tagged tag => .takeValue place tag

end OutputRequest

namespace CallOutputs

variable {call : String} {s : Signature} {taken : Nat} {o : CallOutputs}

/-- A request that names the declared type is given the next output. Any other one is refused, and
nothing changes. -/
inductive Answers (call : String) (s : Signature) (taken : Nat) (o : CallOutputs)
    (request : OutputRequest) : Prop where
  | granted (v) (htag : s.outputs[taken]? = some request.tag) (hanswer : o.answer request = .ok v)
      (hvalues : o.values = v :: (o.after request).values)
      (hafter : (o.after request).Left call s (taken + 1))
  | refused (e) (htag : s.outputs[taken]? ≠ some request.tag)
      (hanswer : o.answer request = .error e) (hafter : o.after request = o)

theorem Left.answers (h : o.Left call s taken) (request : OutputRequest) :
    Answers call s taken o request := by
  by_cases htag : s.outputs[taken]? = some request.tag
  · obtain ⟨x, rest, hvalue, htyped, hrest⟩ := h.take_declared htag
    have hafter : o.after request = rest := by simp only [after, hvalue]
    have hanswer : o.answer request = .ok (.ofCarrier request.tag x) := by
      cases request with
      | typed tag => exact congrArg (Except.map _) htyped
      | tagged tag => exact congrArg (Except.map _) hvalue
    refine .granted _ htag hanswer ?_ ?_
    · rw [hafter]
      exact values_of_takeValue hvalue
    · rw [hafter]
      exact hrest
  · obtain ⟨e, hanswer, _, hafter⟩ := h.answer_refused htag
    exact .refused e htag hanswer hafter

theorem serve_cons (o : CallOutputs) (request : OutputRequest) (rest : List OutputRequest) :
    o.serve (request :: rest) =
      (o.answer request :: ((o.after request).serve rest).1,
        ((o.after request).serve rest).2) := rfl

theorem serve_append (o : CallOutputs) (requests more : List OutputRequest) :
    o.serve (requests ++ more) =
      ((o.serve requests).1 ++ ((o.serve requests).2.serve more).1,
        ((o.serve requests).2.serve more).2) := by
  induction requests generalizing o with
  | nil => rfl
  | cons request rest ih => simp only [List.cons_append, serve_cons, ih]

@[simp] theorem length_serve (o : CallOutputs) (requests : List OutputRequest) :
    (o.serve requests).1.length = requests.length := by
  induction requests generalizing o with
  | nil => rfl
  | cons request rest ih => simp [serve_cons, ih]

theorem Left.exists_after (h : o.Left call s taken) (request : OutputRequest) :
    ∃ taken', (o.after request).Left call s taken' := by
  cases h.answers request with
  | granted _ _ _ _ hafter => exact ⟨taken + 1, hafter⟩
  | refused _ _ _ hafter => exact ⟨taken, by rwa [hafter]⟩

/-- What was given, and then what is left, are the outputs. -/
theorem Left.given_append_left (h : o.Left call s taken) (requests : List OutputRequest) :
    (o.serve requests).1.filterMap Except.toOption ++ (o.serve requests).2.values = o.values := by
  induction requests generalizing o taken with
  | nil => rfl
  | cons request rest ih =>
      cases h.answers request with
      | granted v _ hanswer hvalues hafter =>
          rw [serve_cons, hanswer, hvalues, ← ih hafter]
          rfl
      | refused e _ hanswer hafter =>
          rw [serve_cons, hanswer, hafter, ← ih h]
          rfl

/-- Without the requests that are refused, all other answers are the same. -/
theorem Left.serve_granted (h : o.Left call s taken) (requests : List OutputRequest) :
    o.serve (OutputRequest.granted requests (o.serve requests).1) =
      ((o.serve requests).1.filter Except.isOk, (o.serve requests).2) := by
  induction requests generalizing o taken with
  | nil => rfl
  | cons request rest ih =>
      cases h.answers request with
      | granted v _ hanswer _ hafter =>
          rw [serve_cons, hanswer, OutputRequest.granted, List.filter_cons_of_pos rfl, serve_cons,
            hanswer, ih hafter]
      | refused e _ hanswer hafter =>
          rw [serve_cons, hanswer, hafter, OutputRequest.granted,
            List.filter_cons_of_neg Bool.false_ne_true, ih h]

/-! ## The end -/

theorem Left.finish_eq_ok_iff (h : o.Left call s taken) :
    o.finish = .ok () ↔ taken = s.outputs.length := by
  have hcount := h.remaining_eq
  have hbound := h.taken_le
  unfold finish
  split
  · simp
    omega
  · simp
    omega

/-- A tuple can be copied back exactly if its types are those of the outputs that are left. -/
theorem Left.extract_isOk_iff (h : o.Left call s taken) (tags : List TypeTag) :
    (∃ xs, o.extract tags = .ok xs) ↔ tags = s.outputs.drop taken := by
  rw [← h.tags_eq]
  constructor
  · rintro ⟨xs, hxs⟩
    rw [h.extract_eq_ok_iff.mp hxs, CallValue.tags_ofTuple]
  · intro htags
    obtain ⟨xs, hxs⟩ := CallValue.exists_ofTuple htags.symm
    exact ⟨xs, h.extract_eq_ok_iff.mpr hxs⟩

theorem Left.extract_refused (h : o.Left call s taken) (tags : List TypeTag)
    (hne : tags ≠ s.outputs.drop taken) :
    ∃ e, o.extract tags = .error e ∧ SaysCompleted call e := by
  cases hresult : o.extract tags with
  | ok xs => exact absurd ((h.extract_isOk_iff tags).mp ⟨xs, hresult⟩) hne
  | error e => exact ⟨e, rfl, h.extract_error hresult⟩

/-! ## What a caller does -/

section

variable {α : Type} {b : Caller} {place : Nat}
  {request : CallOutputs → Except HostError (α × CallOutputs)}

theorem copy_of_ok {x : α} {rest : CallOutputs} (ho : b.outputs[place]? = some o)
    (h : request o = .ok (x, rest)) :
    b.copy place request = { b with outputs := b.outputs.set place rest } := by
  simp only [Caller.copy, ho, h]

theorem copy_of_error {e : HostError} (ho : b.outputs[place]? = some o)
    (h : request o = .error e) : b.copy place request = b := by
  simp only [Caller.copy, ho, h]

end

/-- A request of a caller changes the outputs that it is for, and nothing else. -/
theorem Left.step_request (h : o.Left call s taken) {b : Caller} {place : Nat}
    (ho : b.outputs[place]? = some o) (plugin : Plugin) (request : OutputRequest) :
    b.step plugin (request.step place) =
      { b with outputs := b.outputs.set place (o.after request) } := by
  by_cases htag : s.outputs[taken]? = some request.tag
  · obtain ⟨x, rest, hvalue, htyped, _⟩ := h.take_declared htag
    have hafter : o.after request = rest := by simp only [after, hvalue]
    rw [hafter]
    cases request with
    | typed tag => exact copy_of_ok ho htyped
    | tagged tag => exact copy_of_ok ho hvalue
  · obtain ⟨fault, hvalue, htyped⟩ := h.take_refused htag
    have hafter : o.after request = o := by simp only [after, hvalue]
    have hself : b.outputs.set place o = b.outputs := by
      obtain ⟨_, hget⟩ := List.getElem?_eq_some_iff.mp ho
      rw [← hget, List.set_getElem_self]
    rw [hafter, hself]
    cases request with
    | typed tag => exact copy_of_error ho htyped
    | tagged tag => exact copy_of_error ho hvalue

theorem Left.run_requests (h : o.Left call s taken) {b : Caller} {place : Nat}
    (ho : b.outputs[place]? = some o) (plugin : Plugin) (requests : List OutputRequest) :
    b.run plugin (requests.map (OutputRequest.step place)) =
      { b with outputs := b.outputs.set place (o.serve requests).2 } := by
  obtain ⟨hlt, hget⟩ := List.getElem?_eq_some_iff.mp ho
  induction requests generalizing b o taken with
  | nil => rw [List.map_nil, Caller.run, CallOutputs.serve, ← hget, List.set_getElem_self]
  | cons request rest ih =>
      obtain ⟨taken', hafter⟩ := h.exists_after request
      have hnext : (b.outputs.set place (o.after request))[place]? = some (o.after request) :=
        List.getElem?_set_self hlt
      rw [List.map_cons, Caller.run, h.step_request ho plugin request,
        ih hafter hnext (by simpa using hlt) (by simp), List.set_set, serve_cons]

/-! ## All requests -/

/-- What becomes of the outputs of a call: the values that the handler left in its slots are given
to requests, one after the other. -/
structure HandsOut (c : PendingCall) (slots : List CallValue) (o : CallOutputs)
    (requests : List OutputRequest) : Prop where
  /-- A request is granted exactly if the next output is declared with its type. If it is refused,
  the outputs are as they were. -/
  each : ∀ before request more, requests = before ++ request :: more →
    ∃ answer, (o.serve requests).1[before.length]? = some answer ∧
      (answer.isOk = true ↔
        c.signature.outputs[(o.serve before).1.countP Except.isOk]? = some request.tag) ∧
      (answer.isOk = false → (o.serve (before ++ [request])).2 = (o.serve before).2)
  /-- Without the requests that are refused, the others are answered in the same way. -/
  without_refused : o.serve (OutputRequest.granted requests (o.serve requests).1) =
    ((o.serve requests).1.filter Except.isOk, (o.serve requests).2)
  /-- Every value is given once, in order, or is left. -/
  nothing_lost :
    (o.serve requests).1.filterMap Except.toOption ++ (o.serve requests).2.values = slots
  finish_iff : (o.serve requests).2.finish = .ok () ↔
    (o.serve requests).1.countP Except.isOk = c.signature.outputs.length
  extract_iff : ∀ tags, (∃ xs, (o.serve requests).2.extract tags = .ok xs) ↔
    tags = c.signature.outputs.drop ((o.serve requests).1.countP Except.isOk)
  extracted : ∀ tags xs, (o.serve requests).2.extract tags = .ok xs →
    CallValue.ofTuple tags xs = (o.serve requests).2.values
  /-- A tuple with too few members, with too many or with one of another type is refused. -/
  extract_refused : ∀ tags,
    tags ≠ c.signature.outputs.drop ((o.serve requests).1.countP Except.isOk) →
    ∃ e, (o.serve requests).2.extract tags = .error e ∧ SaysCompleted c.call e
  /-- Nothing is asked of a plugin, neither by the requests nor by what ends them. -/
  silent : ∀ (plugin : Plugin) (b : Caller) (place : Nat), b.outputs[place]? = some o →
    b.run plugin (requests.map (OutputRequest.step place)) =
      { b with outputs := b.outputs.set place (o.serve requests).2 }
  silent_end : ∀ (plugin : Plugin) (b : Caller) (place : Nat) (tags : List TypeTag),
    ∀ last ∈ [.finish place, .extract place tags, .intoValues place],
      (b.step plugin last).history = b.history

theorem Left.each (h : o.Left call s 0) (before : List OutputRequest) (request : OutputRequest)
    (more : List OutputRequest) :
    ∃ answer, (o.serve (before ++ request :: more)).1[before.length]? = some answer ∧
      (answer.isOk = true ↔
        s.outputs[(o.serve before).1.countP Except.isOk]? = some request.tag) ∧
      (answer.isOk = false → (o.serve (before ++ [request])).2 = (o.serve before).2) := by
  obtain ⟨hreached, _⟩ := h.serve before
  rw [Nat.zero_add] at hreached
  refine ⟨(o.serve before).2.answer request, ?_, ?_, ?_⟩
  · rw [serve_append, serve_cons, List.getElem?_append_right (by simp), length_serve,
      Nat.sub_self, List.getElem?_cons_zero]
  · rw [hreached.answer_isOk_iff, hreached.position_eq]
  · intro hrefused
    rw [serve_append, serve_cons]
    cases hreached.answers request with
    | granted v _ hanswer => simp [hanswer, Except.isOk, Except.toBool] at hrefused
    | refused e _ _ hafter => exact hafter

/-- The outputs of a call that succeeded are what its handler left in the slots. -/
theorem values_of_invoke {c : PendingCall} {history later : History}
    (h : c.invoke history = (.ok o, later)) :
    ∃ handler t, c.plugin.handler = some handler ∧ c.plugin.answer? history c.call = some t ∧
      o.values = (handler.run (history ++ [.queried c.call (some t)]) c.call c.inputs
        c.signature.outputSlots).apply c.signature.outputSlots := by
  by_cases hfull : c.inputs.length = c.signature.inputs.length
  · rw [PendingCall.invoke_of_complete hfull] at h
    dsimp only at h
    cases hresult : (callWith c.plugin history c.call c.inputs c.signature.outputSlots).result with
    | error e =>
        rw [hresult] at h
        cases h
    | ok u =>
        obtain ⟨t, handler, ht, _, hhandler, hcall⟩ := callWith_eq_ok hresult
        refine ⟨handler, t, hhandler, ht, ?_⟩
        rw [hresult] at h
        cases h
        simp only [hcall, slots_runChecked]
  · rw [PendingCall.invoke_of_incomplete hfull] at h
    cases h

/-- The outputs of a call are handed out once each, in their order, whatever requests are made and
refused in between, and nothing is asked of the plugin any more. -/
theorem outputs_handed_out {c : PendingCall} {history later : History}
    (h : c.invoke history = (.ok o, later)) (requests : List OutputRequest) :
    ∃ handler t, c.plugin.handler = some handler ∧ c.plugin.answer? history c.call = some t ∧
      HandsOut c
        ((handler.run (history ++ [.queried c.call (some t)]) c.call c.inputs
          c.signature.outputSlots).apply c.signature.outputSlots) o requests := by
  obtain ⟨handler, t, hhandler, ht, hvalues⟩ := values_of_invoke h
  have hall := Left.of_invoke h
  obtain ⟨hleft, _⟩ := hall.serve requests
  rw [Nat.zero_add] at hleft
  refine ⟨handler, t, hhandler, ht, ?_⟩
  constructor
  case each =>
    rintro before request more rfl
    exact hall.each before request more
  case without_refused => exact hall.serve_granted requests
  case nothing_lost => rw [← hvalues, hall.given_append_left requests]
  case finish_iff => exact hleft.finish_eq_ok_iff
  case extract_iff => exact hleft.extract_isOk_iff
  case extracted => exact fun tags xs hxs => (hleft.extract_eq_ok_iff.mp hxs).symm
  case extract_refused => exact hleft.extract_refused
  case silent => exact fun plugin b place ho => hall.run_requests ho plugin requests
  case silent_end =>
    intro plugin b place tags last hlast
    simp only [List.mem_cons, List.not_mem_nil, or_false] at hlast
    rcases hlast with rfl | rfl | rfl <;> rfl

theorem outputs_handed_out_restless :
    let s : Signature := ⟨[.string], [.uint, .stringList], false, false⟩
    let plugin := (restless s).plugin
    let c : PendingCall := ⟨plugin, "probe", s, [.string "a"]⟩
    let start : History := [.queried "probe" (some s)]
    let o : CallOutputs := ⟨"probe", s, [.uint 7, .stringList ["a"]], 0⟩
    let requests : List OutputRequest := [.typed .string, .tagged .uint, .tagged .bytes]
    c.invoke start = (.ok o, (c.invoke start).2) ∧
      (o.serve requests).1.countP Except.isOk = 1 ∧
      ∃ handler t, plugin.handler = some handler ∧ plugin.answer? start "probe" = some t ∧
        HandsOut c
          ((handler.run (start ++ [.queried "probe" (some t)]) "probe" [.string "a"]
            s.outputSlots).apply s.outputSlots) o requests := by
  intro s plugin c start o requests
  have h : c.invoke start = (.ok o, (c.invoke start).2) := rfl
  exact ⟨h, rfl, outputs_handed_out h requests⟩

end CallOutputs

end PluginHost
