import PluginHost.Proofs.Call.Building

/-! # Outputs that are copied back

A call succeeds only if its slots still hold the types that were declared when it was begun, even
if the plugin declares other types by then and writes what it likes. So the outputs that are left
always hold what is declared from the cursor on, and a request can only fail by its own fault. -/

namespace PluginHost

theorem CallValue.exists_ofCarrier {v : CallValue} {t : TypeTag} (h : v.tag = t) :
    ∃ x, v = .ofCarrier t x := by
  subst h
  cases v <;> exact ⟨_, rfl⟩

/-! ## Slots of a call that succeeded -/

/-- A call that succeeds leaves every slot with its type, whatever the plugin wrote. -/
theorem tag_slots_callWith {plugin : Plugin} {history : History} {call : String}
    {inputs slots : List CallValue}
    (h : (callWith plugin history call inputs slots).result = .ok ()) :
    (callWith plugin history call inputs slots).slots.map CallValue.tag =
      slots.map CallValue.tag := by
  cases ha : plugin.answer? history call with
  | none =>
      obtain ⟨asked, _, hc⟩ := callWith_of_no_answer ha inputs slots
      rw [hc] at h
      cases h
  | some s =>
      by_cases hf : s.Fits inputs slots
      · obtain ⟨handler, _, hc⟩ := callWith_of_fits ha hf
        rw [hc] at h ⊢
        rw [slots_runChecked]
        exact (runChecked_eq_ok_iff.mp h).2.trans hf.2.symm
      · obtain ⟨fault, hc⟩ := callWith_of_not_fits ha hf
        rw [hc] at h
        cases h

namespace CallOutputs

/-! ## What is left -/

/-- So many outputs of a call were taken, and what is left holds the types declared from there. -/
structure Left (call : String) (s : Signature) (taken : Nat) (o : CallOutputs) : Prop where
  call_eq : o.call = call
  signature_eq : o.signature = s
  position_eq : o.position = taken
  taken_le : taken ≤ s.outputs.length
  tags_eq : o.values.map CallValue.tag = s.outputs.drop taken

variable {call : String} {s : Signature} {taken : Nat} {o : CallOutputs}

theorem Left.remaining_eq (h : o.Left call s taken) :
    o.remaining = s.outputs.length - taken := by
  rw [remaining, ← List.length_map CallValue.tag, h.tags_eq, List.length_drop]

theorem Left.tag_eq (h : o.Left call s taken) {k : Nat} {v : CallValue}
    (hv : o.values[k]? = some v) : s.outputs[o.position + k]? = some v.tag := by
  rw [h.position_eq, ← List.getElem?_drop, ← h.tags_eq, List.getElem?_map, hv, Option.map_some]

theorem Left.take_declared (h : o.Left call s taken) {tag : TypeTag}
    (htag : s.outputs[taken]? = some tag) :
    ∃ x rest, o.takeValue tag = .ok (.ofCarrier tag x, rest) ∧ o.take tag = .ok (x, rest) ∧
      rest.Left call s (taken + 1) := by
  obtain ⟨hlt, hget⟩ := List.getElem?_eq_some_iff.mp htag
  have hexpect : expectTag .output o.signature.outputs o.position tag = .ok () := by
    rw [expectTag_eq_ok_iff, h.signature_eq, h.position_eq, htag]
  have htags := h.tags_eq
  rw [List.drop_eq_getElem_cons hlt, hget] at htags
  obtain ⟨v, values, hvalues, hv, hrest⟩ := List.map_eq_cons_iff.mp htags
  obtain ⟨x, rfl⟩ := CallValue.exists_ofCarrier hv
  refine ⟨x, { o with values := values, position := o.position + 1 }, ?_, ?_, ?_⟩
  · simp only [takeValue, hexpect, hvalues]
  · simp only [take, takeValue, hexpect, hvalues, CallValue.toCarrier?_ofCarrier]
  · exact ⟨h.call_eq, h.signature_eq, congrArg (· + 1) h.position_eq, hlt, hrest⟩

theorem Left.take_refused (h : o.Left call s taken) {tag : TypeTag}
    (htag : s.outputs[taken]? ≠ some tag) :
    ∃ fault, o.takeValue tag = .error (.invalidArgument call (.completed fault)) ∧
      o.take tag = .error (.invalidArgument call (.completed fault)) := by
  cases hexpect : expectTag .output o.signature.outputs o.position tag with
  | ok u =>
      rw [expectTag_eq_ok_iff, h.signature_eq, h.position_eq] at hexpect
      exact (htag hexpect).elim
  | error fault =>
      refine ⟨fault, ?_, ?_⟩
      · simp only [takeValue, hexpect, completed, h.call_eq]
      · simp only [take, takeValue, hexpect, completed, h.call_eq]

theorem Left.of_invoke {c : PendingCall} {history later : History}
    (h : c.invoke history = (.ok o, later)) : o.Left c.call c.signature 0 := by
  by_cases hfull : c.inputs.length = c.signature.inputs.length
  · rw [PendingCall.invoke_of_complete hfull] at h
    dsimp only at h
    cases hresult : (callWith c.plugin history c.call c.inputs c.signature.outputSlots).result with
    | error e =>
        rw [hresult] at h
        cases h
    | ok u =>
        have htags := (tag_slots_callWith hresult).trans c.signature.tag_outputSlots
        rw [hresult] at h
        cases h
        exact ⟨rfl, rfl, rfl, Nat.zero_le _, htags⟩
  · rw [PendingCall.invoke_of_incomplete hfull] at h
    cases h

/-! ## Requests -/

/-- The error is that an argument of the call is wrong, and it says that the call has run. -/
def SaysCompleted (call : String) (e : HostError) : Prop :=
  ∃ fault text, e = .invalidArgument call fault ∧
    fault.detail = text ++ " (call already completed)"

theorem saysCompleted (call : String) (fault : ArgumentFault) :
    SaysCompleted call (.invalidArgument call (.completed fault)) :=
  ⟨.completed fault, fault.detail, rfl, rfl⟩

/-- A request under the declared type takes one output and is given it. -/
theorem Left.answer_declared (h : o.Left call s taken) {request : OutputRequest}
    (htag : s.outputs[taken]? = some request.tag) :
    ∃ v, o.answer request = .ok v ∧ (o.after request).Left call s (taken + 1) := by
  obtain ⟨x, rest, hvalue, htyped, hrest⟩ := h.take_declared htag
  refine ⟨.ofCarrier request.tag x, ?_, ?_⟩
  · cases request with
    | typed tag =>
        have ht : o.take tag = .ok (x, rest) := htyped
        simp only [CallOutputs.answer, ht]
        rfl
    | tagged tag =>
        have hv : o.takeValue tag = .ok (.ofCarrier tag x, rest) := hvalue
        simp only [CallOutputs.answer, hv]
        rfl
  · simpa only [after, hvalue] using hrest

/-- Any other request takes none and is told why. -/
theorem Left.answer_refused (h : o.Left call s taken) {request : OutputRequest}
    (htag : s.outputs[taken]? ≠ some request.tag) :
    ∃ e, o.answer request = .error e ∧ SaysCompleted call e ∧ o.after request = o := by
  obtain ⟨fault, hvalue, htyped⟩ := h.take_refused htag
  refine ⟨_, ?_, saysCompleted call fault, by simp only [after, hvalue]⟩
  cases request with
  | typed tag =>
      have ht : o.take tag = .error (.invalidArgument call (.completed fault)) := htyped
      simp only [CallOutputs.answer, ht]
      rfl
  | tagged tag =>
      have hv : o.takeValue tag = .error (.invalidArgument call (.completed fault)) := hvalue
      simp only [CallOutputs.answer, hv]
      rfl

theorem Left.answer_isOk_iff (h : o.Left call s taken) (request : OutputRequest) :
    (o.answer request).isOk = true ↔ s.outputs[o.position]? = some request.tag := by
  rw [h.position_eq]
  by_cases htag : s.outputs[taken]? = some request.tag
  · obtain ⟨v, hanswer, _⟩ := h.answer_declared htag
    simp only [hanswer, htag, Except.isOk, Except.toBool]
  · obtain ⟨e, hanswer, _⟩ := h.answer_refused htag
    simp only [hanswer, htag, Except.isOk, Except.toBool, Bool.false_eq_true]

/-- Requests take as many outputs as they are given. -/
theorem Left.serve (h : o.Left call s taken) (requests : List OutputRequest) :
    (o.serve requests).2.Left call s (taken + (o.serve requests).1.countP Except.isOk) ∧
      ∀ e, .error e ∈ (o.serve requests).1 → SaysCompleted call e := by
  induction requests generalizing o taken with
  | nil => exact ⟨h, by simp [CallOutputs.serve]⟩
  | cons request rest ih =>
      by_cases htag : s.outputs[taken]? = some request.tag
      · obtain ⟨v, hanswer, hafter⟩ := h.answer_declared htag
        obtain ⟨hleft, hfaults⟩ := ih hafter
        rw [Nat.add_right_comm] at hleft
        simp only [CallOutputs.serve, hanswer, List.countP_cons, List.mem_cons]
        refine ⟨hleft, ?_⟩
        rintro e (he | he)
        · cases he
        · exact hfaults e he
      · obtain ⟨e, hanswer, he, hafter⟩ := h.answer_refused htag
        obtain ⟨hleft, hfaults⟩ := ih h
        simp only [CallOutputs.serve, hanswer, hafter, List.countP_cons, List.mem_cons]
        refine ⟨hleft, ?_⟩
        rintro e' (he' | he')
        · cases he'
          exact he
        · exact hfaults e' he'

theorem Left.finish_error (h : o.Left call s taken) {e : HostError} (he : o.finish = .error e) :
    SaysCompleted call e := by
  unfold finish at he
  split at he
  · cases he
  · cases he
    rw [completed, h.call_eq]
    exact saysCompleted call _

theorem Left.takeTuple (h : o.Left call s taken) (tags : List TypeTag) :
    (∃ xs left taken', o.takeTuple tags = .ok (xs, left) ∧ left.Left call s taken') ∨
      ∃ e, o.takeTuple tags = .error e ∧ SaysCompleted call e := by
  induction tags generalizing o taken with
  | nil => exact .inl ⟨(), o, taken, rfl, h⟩
  | cons tag tags ih =>
      by_cases htag : s.outputs[taken]? = some tag
      · obtain ⟨x, rest, _, htake, hrest⟩ := h.take_declared htag
        simp only [CallOutputs.takeTuple, htake]
        rcases ih hrest with ⟨xs, left, taken', hxs, hleft⟩ | ⟨e, he, hsays⟩
        · exact .inl ⟨(x, xs), left, taken', by rw [hxs], hleft⟩
        · exact .inr ⟨e, by rw [he], hsays⟩
      · obtain ⟨fault, _, htake⟩ := h.take_refused htag
        simp only [CallOutputs.takeTuple, htake]
        exact .inr ⟨_, rfl, saysCompleted call fault⟩

theorem Left.extract_error (h : o.Left call s taken) {tags : List TypeTag} {e : HostError}
    (he : o.extract tags = .error e) : SaysCompleted call e := by
  unfold extract at he
  rcases h.takeTuple tags with ⟨xs, left, taken', hxs, hleft⟩ | ⟨first, hfirst, hsays⟩
  · simp only [hxs] at he
    split at he
    · cases he
      exact hleft.finish_error ‹_›
    · cases he
  · simp only [hfirst] at he
    cases he
    exact hsays

/-- What requests for the outputs of a call come to. -/
structure CopyBackSpec (c : PendingCall) (answers : List (Except HostError CallValue))
    (left : CallOutputs) : Prop where
  given_le : answers.countP Except.isOk ≤ c.signature.outputs.length
  remaining_eq :
    left.remaining = c.signature.outputs.length - answers.countP Except.isOk
  position_eq : left.position = answers.countP Except.isOk
  tag_eq : ∀ k v, left.values[k]? = some v →
    c.signature.outputs[left.position + k]? = some v.tag
  /-- There is an output wherever one is declared. -/
  not_exhausted : ∀ tag, expectTag .output left.signature.outputs left.position tag = .ok () →
    left.values ≠ []
  /-- An output that is found under a type is of that type. -/
  of_type : ∀ tag v rest, left.takeValue tag = .ok (v, rest) → ∃ x, v.toCarrier? tag = some x
  /-- The next request is granted if it names the type that is declared there. -/
  granted_iff : ∀ request : OutputRequest, (left.answer request).isOk = true ↔
    c.signature.outputs[left.position]? = some request.tag
  answer_error : ∀ e, .error e ∈ answers → SaysCompleted c.call e
  finish_error : ∀ e, left.finish = .error e → SaysCompleted c.call e
  extract_error : ∀ tags e, left.extract tags = .error e → SaysCompleted c.call e

theorem Left.not_exhausted (h : o.Left call s taken) {tag : TypeTag}
    (hexpect : expectTag .output o.signature.outputs o.position tag = .ok ()) :
    o.values ≠ [] := by
  rw [expectTag_eq_ok_iff, h.signature_eq, h.position_eq] at hexpect
  obtain ⟨x, rest, htake, _⟩ := h.take_declared hexpect
  intro hnil
  simp [takeValue, hnil, expectTag, h.signature_eq, h.position_eq, hexpect] at htake

theorem Left.of_type (h : o.Left call s taken) {tag : TypeTag} {v : CallValue}
    {rest : CallOutputs} (htake : o.takeValue tag = .ok (v, rest)) :
    ∃ x, v.toCarrier? tag = some x := by
  by_cases htag : s.outputs[taken]? = some tag
  · obtain ⟨x, _, hvalue, _⟩ := h.take_declared htag
    rw [hvalue] at htake
    cases htake
    exact ⟨x, CallValue.toCarrier?_ofCarrier tag x⟩
  · obtain ⟨fault, hvalue, _⟩ := h.take_refused htag
    rw [hvalue] at htake
    cases htake

/-- Whatever a plugin declares and writes, the outputs of a call that succeeded are handed out as
they were declared when it was begun, and a request for them can only fail by its own fault. -/
theorem requests_leave_declared {c : PendingCall} {history later : History}
    (h : c.invoke history = (.ok o, later)) (requests : List OutputRequest) :
    CopyBackSpec c (o.serve requests).1 (o.serve requests).2 := by
  obtain ⟨hleft, hfaults⟩ := (Left.of_invoke h).serve requests
  rw [Nat.zero_add] at hleft
  constructor
  case given_le => exact hleft.taken_le
  case remaining_eq => exact hleft.remaining_eq
  case position_eq => exact hleft.position_eq
  case tag_eq => exact fun k v hv => hleft.tag_eq hv
  case not_exhausted => exact fun tag hexpect => hleft.not_exhausted hexpect
  case of_type => exact fun tag v rest htake => hleft.of_type htake
  case granted_iff => exact hleft.answer_isOk_iff
  case answer_error => exact hfaults
  case finish_error => exact fun e he => hleft.finish_error he
  case extract_error => exact fun tags e he => hleft.extract_error he

/-- A handler that hands its tables over from the second query on, and that writes a value of
another type to a slot before it fills it. -/
def restless (s : Signature) : CallHandler where
  signature _ := some fun history =>
    some { s with handsInputs := !history.isEmpty, handsOutputs := !history.isEmpty }
  run _ _ inputs slots :=
    ⟨[(0, .string "draft"), (0, .uint 7), (1, .stringList (inputs.filterMap CallValue.text?)),
      (slots.length, .boolean true)], .ok ()⟩

theorem restless_requests :
    let s : Signature := ⟨[.string], [.uint, .stringList], false, false⟩
    let c : PendingCall := ⟨(restless s).plugin, "probe", s, [.string "a"]⟩
    let start : History := [.queried "probe" (some s)]
    let o : CallOutputs := ⟨"probe", s, [.uint 7, .stringList ["a"]], 0⟩
    let later := start ++
      [.queried "probe" (some { s with handsInputs := true, handsOutputs := true }),
      .invoked "probe" [.string "a"] [.uint 0, .stringList []]]
    let requests : List OutputRequest := [.typed .string, .tagged .uint, .tagged .bytes,
      .typed .stringList, .typed .stringList]
    c.invoke start = (.ok o, later) ∧
      CopyBackSpec c (o.serve requests).1 (o.serve requests).2 := by
  intro s c start o later requests
  have h : c.invoke start = (.ok o, later) := rfl
  exact ⟨h, requests_leave_declared h requests⟩

end CallOutputs

end PluginHost
