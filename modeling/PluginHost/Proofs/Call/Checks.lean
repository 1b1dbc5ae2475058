import PluginHost.Call.Pending
import PluginHost.Proofs.Results

/-! # Checks of declared types

A list of values passes exactly when its types are the declared ones. Values that are collected one
by one go through the same checks in the same order, so the first fault is the same. -/

namespace PluginHost

/-! ## One position and all positions -/

theorem expectTag_eq_ok_iff (direction : Direction) (declared : List TypeTag) (position : Nat)
    (tag : TypeTag) :
    expectTag direction declared position tag = .ok () ↔ declared[position]? = some tag := by
  unfold expectTag
  cases declared[position]? with
  | none => simp
  | some expected =>
      by_cases h : expected = tag
      · simp [h]
      · simp [h]

theorem expectTags_cons_of_ok {direction : Direction} {declared : List TypeTag} {position : Nat}
    {v : CallValue} (h : expectTag direction declared position v.tag = .ok ())
    (vs : List CallValue) :
    expectTags direction declared position (v :: vs) =
      expectTags direction declared (position + 1) vs := by
  simp only [expectTags, h]

theorem expectTags_cons_of_error {direction : Direction} {declared : List TypeTag}
    {position : Nat} {v : CallValue} {fault : ArgumentFault}
    (h : expectTag direction declared position v.tag = .error fault) (vs : List CallValue) :
    expectTags direction declared position (v :: vs) = .error fault := by
  simp only [expectTags, h]

/-- From a position on, values pass exactly when their types begin what is declared from there. -/
theorem expectTags_eq_ok_iff (direction : Direction) (declared : List TypeTag) (position : Nat)
    (values : List CallValue) :
    expectTags direction declared position values = .ok () ↔
      values.map CallValue.tag <+: declared.drop position := by
  induction values generalizing position with
  | nil => simp [expectTags]
  | cons v vs ih =>
      by_cases hp : position < declared.length
      · rw [List.drop_eq_getElem_cons hp, List.map_cons, List.cons_prefix_cons, ← ih]
        cases he : expectTag direction declared position v.tag with
        | ok u =>
            have hget := (expectTag_eq_ok_iff direction declared position v.tag).mp he
            rw [List.getElem?_eq_getElem hp, Option.some_inj] at hget
            simp [expectTags_cons_of_ok he, hget]
        | error fault =>
            have hne : v.tag ≠ declared[position] := by
              intro hv
              have hok : expectTag direction declared position v.tag = .ok () := by
                rw [expectTag_eq_ok_iff, List.getElem?_eq_getElem hp, hv]
              rw [he] at hok
              cases hok
            simp [expectTags_cons_of_error he, hne]
      · have hnone : declared[position]? = none :=
          List.getElem?_eq_none (Nat.le_of_not_lt hp)
        rw [List.drop_eq_nil_of_le (Nat.le_of_not_lt hp)]
        simp [expectTags, expectTag, hnone]

theorem length_of_tags_eq {declared : List TypeTag} {values : List CallValue}
    (h : values.map CallValue.tag = declared) : values.length = declared.length := by
  rw [← h, List.length_map]

theorem expectTags_of_tags_eq {declared : List TypeTag} {values : List CallValue}
    (h : values.map CallValue.tag = declared) (direction : Direction) :
    expectTags direction declared 0 values = .ok () := by
  rw [expectTags_eq_ok_iff, List.drop_zero]
  exact h ▸ List.prefix_refl _

/-- All values pass exactly when their types are the declared ones, in order and in number. -/
theorem checkTags_eq_ok_iff (direction : Direction) (declared : List TypeTag)
    (values : List CallValue) :
    checkTags direction declared values = .ok () ↔ values.map CallValue.tag = declared := by
  unfold checkTags
  cases he : expectTags direction declared 0 values with
  | ok u =>
      have hbegins : values.map CallValue.tag <+: declared :=
        (expectTags_eq_ok_iff direction declared 0 values).mp he
      by_cases hlen : values.length = declared.length
      · have heq : values.map CallValue.tag = declared :=
          hbegins.eq_of_length (by simpa using hlen)
        simp [hlen, heq]
      · have hne : values.map CallValue.tag ≠ declared := by
          intro h
          exact hlen (length_of_tags_eq h)
        simp [hlen, hne]
  | error fault =>
      have hne : values.map CallValue.tag ≠ declared := by
        intro h
        rw [expectTags_of_tags_eq h direction] at he
        cases he
      simp [hne]

namespace Signature

/-- The inputs and output slots of a call are of the declared types, in order and in number. -/
def Fits (s : Signature) (inputs slots : List CallValue) : Prop :=
  inputs.map CallValue.tag = s.inputs ∧ slots.map CallValue.tag = s.outputs

instance (s : Signature) (inputs slots : List CallValue) : Decidable (s.Fits inputs slots) :=
  inferInstanceAs (Decidable (_ ∧ _))

theorem checkInputs_eq_ok_iff (s : Signature) (call : String) (values : List CallValue) :
    s.checkInputs call values = .ok () ↔ values.map CallValue.tag = s.inputs := by
  rw [checkInputs, mapError_eq_ok_iff, checkTags_eq_ok_iff]

theorem checkOutputs_eq_ok_iff (s : Signature) (call : String) (values : List CallValue) :
    s.checkOutputs call values = .ok () ↔ values.map CallValue.tag = s.outputs := by
  rw [checkOutputs, mapError_eq_ok_iff, checkTags_eq_ok_iff]

/-- Fresh output slots are of the declared types. -/
theorem tag_outputSlots (s : Signature) : s.outputSlots.map CallValue.tag = s.outputs := by
  rw [outputSlots, List.map_map]
  calc
    s.outputs.map (CallValue.tag ∘ CallValue.empty) = s.outputs.map id := by
      apply List.map_congr_left
      intro t _
      exact CallValue.tag_empty t
    _ = s.outputs := List.map_id _

end Signature

end PluginHost
