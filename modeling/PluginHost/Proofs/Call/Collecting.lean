import PluginHost.Proofs.Call.Building
import PluginHost.Proofs.Call.Faults

/-! # Inputs checked one by one and as a list

A list of values is checked by position, and the first value that is wrong at its own position
decides what is reported. Inputs that are collected one by one are stopped at the same value. -/

namespace PluginHost

/-- The first value whose type is not the one declared at its position, where there may be none. -/
structure FirstWrong (declared : List TypeTag) (values : List CallValue) (position : Nat)
    (v : CallValue) : Prop where
  found : values[position]? = some v
  wrong : declared[position]? ≠ some v.tag
  before : ∀ i < position, ∀ w, values[i]? = some w → declared[i]? = some w.tag

/-- A check of values reports what the check of one position says of the first value that is
wrong. It reports their number if none is wrong and they end too early. -/
structure ReportsFirst (direction : Direction) (call : String) (declared : List TypeTag)
    (expect : Nat → TypeTag → Except HostError Unit)
    (check : List CallValue → Except HostError Unit) : Prop where
  accepts : ∀ values, check values = .ok () ↔ values.map CallValue.tag = declared
  wrong : ∀ values position v, FirstWrong declared values position v →
    ∃ e, expect position v.tag = .error e ∧ check values = .error e
  short : ∀ values, values.map CallValue.tag ≠ declared →
    (∀ position v, ¬ FirstWrong declared values position v) →
    values.map CallValue.tag <+: declared ∧ check values =
      .error (.invalidArgument call (.count direction values.length declared.length))

/-- Inputs are collected exactly as long as their types begin the declared ones. They are stopped
at the value, and with the error, at which a check of all of them stops. -/
structure CollectsAlike (plugin : Plugin) (call : String) (s : Signature) : Prop where
  accepts : ∀ values next, (PendingCall.mk plugin call s []).pushAll values = .ok next ↔
    values.map CallValue.tag <+: s.inputs ∧ next = ⟨plugin, call, s, values⟩
  rejects : ∀ values e, (PendingCall.mk plugin call s []).pushAll values = .error e →
    ∃ position v next, FirstWrong s.inputs values position v ∧
      (PendingCall.mk plugin call s []).pushAll (values.take position) = .ok next ∧
      next.push v = .error e ∧ s.expectInput call position v.tag = .error e ∧
      s.checkInputs call values = .error e

variable {direction : Direction} {declared : List TypeTag} {values : List CallValue}
  {position : Nat} {v : CallValue}

/-! ## The first value that is wrong -/

theorem FirstWrong.firstDifference (h : FirstWrong declared values position v) :
    FirstDifference declared (values.map CallValue.tag) position where
  same i hi := by
    have hbound : position < values.length := (List.getElem?_eq_some_iff.mp h.found).1
    have hvalue := List.getElem?_eq_getElem (Nat.lt_trans hi hbound)
    rw [h.before i hi _ hvalue, List.getElem?_map, hvalue, Option.map_some]
  differ hsame := by
    rw [List.getElem?_map, h.found, Option.map_some] at hsame
    exact h.wrong hsame.symm

/-- The values before it begin the declared types. -/
theorem FirstWrong.take_begins (h : FirstWrong declared values position v) :
    (values.take position).map CallValue.tag <+: declared := by
  refine List.prefix_iff_getElem?.mpr fun i hi => ?_
  have hlt : i < position ∧ i < values.length := by simpa [Nat.lt_min] using hi
  rw [h.before i hlt.1 _ (List.getElem?_eq_getElem hlt.2)]
  simp

theorem FirstWrong.split (h : FirstWrong declared values position v) :
    values = values.take position ++ v :: values.drop (position + 1) := by
  obtain ⟨hbound, rfl⟩ := List.getElem?_eq_some_iff.mp h.found
  rw [← List.drop_eq_getElem_cons hbound, List.take_append_drop]

/-- Its position is the one that a check of the position and a check of the list speak of. -/
theorem FirstWrong.fault (direction : Direction) (h : FirstWrong declared values position v) :
    ∃ fault, expectTag direction declared position v.tag = .error fault ∧
      checkTags direction declared values = .error fault := by
  refine ⟨_, ?_, (checkTags_eq_error_iff direction declared values _).mpr
    ⟨position, h.firstDifference, rfl⟩⟩
  rw [faultAt, List.getElem?_map, h.found, expectTag]
  cases hd : declared[position]? with
  | none => rfl
  | some expected =>
      have hne : expected ≠ v.tag := fun he => h.wrong (by rw [hd, he])
      simp only [Option.map_some, hne, if_false]

/-- No value is wrong exactly if the types of all begin the declared ones. -/
theorem tags_prefix_iff : values.map CallValue.tag <+: declared ↔
    ∀ position v, ¬ FirstWrong declared values position v := by
  constructor
  · intro hbegins position v h
    refine h.wrong ?_
    obtain ⟨hbound, rfl⟩ := List.getElem?_eq_some_iff.mp h.found
    rw [List.prefix_iff_getElem?.mp hbegins position (by simpa using hbound), List.getElem_map]
  · intro hnone
    refine List.prefix_iff_getElem?.mpr fun i hi => ?_
    -- the values up to a position are right, since none of them is the first wrong one
    induction i using Nat.strongRecOn with
    | _ i ih =>
        have hbound : i < values.length := by simpa using hi
        rw [List.getElem_map]
        refine Decidable.byContradiction fun hwrong => hnone i values[i]
          ⟨List.getElem?_eq_getElem hbound, hwrong, fun j hj w hw => ?_⟩
        obtain ⟨hj', rfl⟩ := List.getElem?_eq_some_iff.mp hw
        rw [ih j hj (by simpa using hj'), List.getElem_map]

theorem exists_firstWrong (h : ¬ values.map CallValue.tag <+: declared) :
    ∃ position v, FirstWrong declared values position v := by
  refine Classical.byContradiction fun hnone => h (tags_prefix_iff.mpr fun position v hfirst => ?_)
  exact hnone ⟨position, v, hfirst⟩

/-! ## Checks of a list -/

theorem checkTags_of_short (hbegins : values.map CallValue.tag <+: declared)
    (hne : values.map CallValue.tag ≠ declared) :
    checkTags direction declared values =
      .error (.count direction values.length declared.length) := by
  have hexpect := (expectTags_eq_ok_iff direction declared 0 values).mpr (by simpa using hbegins)
  have hlength : values.length ≠ declared.length := fun h =>
    hne (hbegins.eq_of_length (by simpa using h))
  simp only [checkTags, hexpect, hlength, if_false]

theorem reportsFirst_checkTags (direction : Direction) (call : String) (declared : List TypeTag) :
    ReportsFirst direction call declared
      (fun position tag => (expectTag direction declared position tag).mapError
        (.invalidArgument call))
      (fun values => (checkTags direction declared values).mapError (.invalidArgument call)) where
  accepts values := by rw [mapError_eq_ok_iff, checkTags_eq_ok_iff]
  wrong values position v h := by
    obtain ⟨fault, hexpect, hcheck⟩ := h.fault direction
    exact ⟨_, by rw [hexpect, mapError_error], by rw [hcheck, mapError_error]⟩
  short values hne hnone := by
    have hbegins := tags_prefix_iff.mpr hnone
    exact ⟨hbegins, by rw [checkTags_of_short hbegins hne, mapError_error]⟩

/-! ## Inputs one by one -/

namespace PendingCall

theorem collected_iff (plugin : Plugin) (call : String) (s : Signature) (values : List CallValue)
    (next : PendingCall) :
    (PendingCall.mk plugin call s []).pushAll values = .ok next ↔
      values.map CallValue.tag <+: s.inputs ∧ next = ⟨plugin, call, s, values⟩ := by
  simpa using pushAll_eq_ok_iff ⟨plugin, call, s, []⟩ next values

/-- An error of a checked position stops what is collected. -/
theorem push_of_expectInput {c : PendingCall} {e : HostError}
    (h : c.signature.expectInput c.call c.inputs.length v.tag = .error e) :
    c.push v = .error e := by
  rw [push, pushAs, h]

theorem pushAll_append (c : PendingCall) (xs ys : List CallValue) :
    c.pushAll (xs ++ ys) = (c.pushAll xs).bind fun next => next.pushAll ys := by
  induction xs generalizing c with
  | nil => rfl
  | cons x xs ih =>
      rw [List.cons_append, pushAll, pushAll]
      cases c.push x with
      | error e => rfl
      | ok next => exact ih next

/-- What comes behind a value that is stopped is never offered. -/
theorem pushAll_of_push {c next : PendingCall} {xs ys : List CallValue} {e : HostError}
    (hbefore : c.pushAll xs = .ok next) (hpush : next.push v = .error e) :
    c.pushAll (xs ++ v :: ys) = .error e := by
  rw [pushAll_append, hbefore, Except.bind, pushAll, hpush]

/-- The first wrong value is where inputs are stopped, with the error of a check of the list. -/
theorem stopped_at {s : Signature} (plugin : Plugin) (call : String)
    (h : FirstWrong s.inputs values position v) :
    ∃ e, (PendingCall.mk plugin call s (values.take position)).push v = .error e ∧
      (PendingCall.mk plugin call s []).pushAll values = .error e ∧
      s.expectInput call position v.tag = .error e ∧ s.checkInputs call values = .error e := by
  obtain ⟨e, hexpect, hcheck⟩ :=
    (reportsFirst_checkTags .input call s.inputs).wrong values position v h
  have hlength : (values.take position).length = position :=
    List.length_take_of_le (Nat.le_of_lt (List.getElem?_eq_some_iff.mp h.found).1)
  have hpush : (PendingCall.mk plugin call s (values.take position)).push v = .error e :=
    push_of_expectInput (by rw [hlength]; exact hexpect)
  refine ⟨e, hpush, ?_, hexpect, hcheck⟩
  rw [h.split]
  exact pushAll_of_push ((collected_iff plugin call s _ _).mpr ⟨h.take_begins, rfl⟩) hpush

theorem collectsAlike (plugin : Plugin) (call : String) (s : Signature) :
    CollectsAlike plugin call s where
  accepts := collected_iff plugin call s
  rejects values e he := by
    have hbegins : ¬ values.map CallValue.tag <+: s.inputs := by
      intro hbegins
      rw [(collected_iff plugin call s values _).mpr ⟨hbegins, rfl⟩] at he
      cases he
    obtain ⟨position, v, h⟩ := exists_firstWrong hbegins
    obtain ⟨stop, hpush, hstop, hexpect, hcheck⟩ := stopped_at plugin call h
    obtain rfl : stop = e := Except.error.inj (hstop.symm.trans he)
    exact ⟨position, v, _, h, (collected_iff plugin call s _ _).mpr ⟨h.take_begins, rfl⟩, hpush,
      hexpect, hcheck⟩

end PendingCall

/-- Values are accepted exactly if their types are the declared ones. Otherwise the first wrong
position decides, for inputs and for outputs, for values in a list and for inputs one by one. -/
theorem Signature.checked_by_position (s : Signature) (call : String) :
    ReportsFirst .input call s.inputs (s.expectInput call) (s.checkInputs call) ∧
      ReportsFirst .output call s.outputs (s.expectOutput call) (s.checkOutputs call) ∧
      ∀ plugin, CollectsAlike plugin call s :=
  ⟨reportsFirst_checkTags .input call s.inputs, reportsFirst_checkTags .output call s.outputs,
    fun plugin => PendingCall.collectsAlike plugin call s⟩

/-- A value of a wrong type is reported, although there are too many values as well. -/
example : Signature.checkInputs ⟨[.string, .int], [], false, false⟩ "probe"
      [.string "a", .string "b", .int 0] =
    .error (.invalidArgument "probe" (.mismatch .input 1 .string .int)) :=
  rfl

end PluginHost
