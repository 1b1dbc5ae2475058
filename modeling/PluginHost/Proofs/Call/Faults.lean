import PluginHost.Proofs.Call.Checks

/-! # The first fault of a list of values

Values are checked from the left, and their number last. What is reported is the first position at
which their types are not the declared ones, or the number if they only end too early. -/

namespace PluginHost

/-- The first position at which types are not the declared ones; either list may end there. -/
structure FirstDifference (declared found : List TypeTag) (position : Nat) : Prop where
  same : ∀ i < position, found[i]? = declared[i]?
  differ : found[position]? ≠ declared[position]?

/-- What is wrong with types that are not the declared ones at a position. -/
def faultAt (direction : Direction) (declared found : List TypeTag) (position : Nat) :
    ArgumentFault :=
  match found[position]?, declared[position]? with
  | some tag, some expected => .mismatch direction position tag expected
  | some tag, none => .surplus direction position tag declared.length
  | none, _ => .count direction found.length declared.length

/-- The fault at the first position that is wrong. -/
def FirstFault (direction : Direction) (declared found : List TypeTag) (fault : ArgumentFault) :
    Prop :=
  ∃ position, FirstDifference declared found position ∧
    faultAt direction declared found position = fault

variable {direction : Direction} {declared found before : List TypeTag}
  {values : List CallValue} {fault : ArgumentFault}

/-! ## There is one -/

theorem FirstDifference.unique {i j : Nat} (hi : FirstDifference declared found i)
    (hj : FirstDifference declared found j) : i = j := by
  rcases Nat.lt_trichotomy i j with hlt | heq | hlt
  · exact absurd (hj.same i hlt) hi.differ
  · exact heq
  · exact absurd (hi.same j hlt) hj.differ

theorem FirstFault.unique {other : ArgumentFault} (h : FirstFault direction declared found fault)
    (ho : FirstFault direction declared found other) : fault = other := by
  obtain ⟨i, hi, rfl⟩ := h
  obtain ⟨j, hj, rfl⟩ := ho
  rw [hi.unique hj]

theorem FirstFault.ne (h : FirstFault direction declared found fault) : found ≠ declared := by
  rintro rfl
  obtain ⟨position, hdifference, _⟩ := h
  exact hdifference.differ rfl

theorem getElem?_append_length (before more : List TypeTag) :
    (before ++ more)[before.length]? = more.head? := by
  rw [List.getElem?_append_right (Nat.le_refl _), Nat.sub_self, List.head?_eq_getElem?]

/-- Lists part right behind a common beginning if they do not go on in the same way. -/
theorem firstDifference_append (before : List TypeTag) {more rest : List TypeTag}
    (h : rest.head? ≠ more.head?) :
    FirstDifference (before ++ more) (before ++ rest) before.length where
  same i hi := by rw [List.getElem?_append_left hi, List.getElem?_append_left hi]
  differ := by rwa [getElem?_append_length, getElem?_append_length]

/-! ## It is what the checks report -/

theorem firstFault_of_expectTag {tag : TypeTag} (hbefore : before <+: declared)
    (h : expectTag direction declared before.length tag = .error fault) (rest : List TypeTag) :
    FirstFault direction declared (before ++ tag :: rest) fault := by
  obtain ⟨more, rfl⟩ := hbefore
  rw [expectTag, getElem?_append_length] at h
  refine ⟨before.length, firstDifference_append before ?_, ?_⟩
  · intro hsame
    rw [← hsame] at h
    simp at h
  · rw [faultAt, getElem?_append_length, getElem?_append_length, List.head?_cons]
    cases hmore : more.head? with
    | none =>
        rw [hmore] at h
        cases h
        rfl
    | some expected =>
        rw [hmore] at h
        dsimp only at h
        split at h
        · cases h
        · cases h
          rfl

/-- What was checked before begins the declared types. -/
theorem firstFault_of_expectTags (hbefore : before <+: declared)
    (h : expectTags direction declared before.length values = .error fault) :
    FirstFault direction declared (before ++ values.map CallValue.tag) fault := by
  induction values generalizing before with
  | nil => cases h
  | cons v vs ih =>
      cases he : expectTag direction declared before.length v.tag with
      | error first =>
          rw [expectTags_cons_of_error he] at h
          cases h
          exact firstFault_of_expectTag hbefore he _
      | ok u =>
          rw [expectTags_cons_of_ok he] at h
          have hnext : before ++ [v.tag] <+: declared := by
            obtain ⟨more, rfl⟩ := hbefore
            rw [expectTag_eq_ok_iff, getElem?_append_length] at he
            obtain ⟨rest, rfl⟩ := List.head?_eq_some_iff.mp he
            exact ⟨rest, by simp⟩
          simpa using ih hnext (by simpa using h)

theorem firstFault_of_checkTags (h : checkTags direction declared values = .error fault) :
    FirstFault direction declared (values.map CallValue.tag) fault := by
  unfold checkTags at h
  cases he : expectTags direction declared 0 values with
  | error first =>
      rw [he] at h
      cases h
      exact firstFault_of_expectTags List.nil_prefix he
  | ok u =>
      rw [he] at h
      dsimp only at h
      split at h
      · cases h
      · -- the values pass one by one, so they only end too early
        rename_i hlength
        cases h
        obtain ⟨more, hmore⟩ := (expectTags_eq_ok_iff direction declared 0 values).mp he
        rw [List.drop_zero] at hmore
        have hends : more ≠ [] := by
          rintro rfl
          exact hlength (length_of_tags_eq (by simpa using hmore))
        obtain ⟨expected, rest, rfl⟩ := List.exists_cons_of_ne_nil hends
        have hparts : ([] : List TypeTag).head? ≠ (expected :: rest).head? := by simp
        have hdifference := firstDifference_append (values.map CallValue.tag) hparts
        rw [hmore, List.append_nil] at hdifference
        refine ⟨_, hdifference, ?_⟩
        rw [faultAt, List.getElem?_eq_none (Nat.le_refl _), List.length_map]

theorem checkTags_eq_error_iff (direction : Direction) (declared : List TypeTag)
    (values : List CallValue) (fault : ArgumentFault) :
    checkTags direction declared values = .error fault ↔
      FirstFault direction declared (values.map CallValue.tag) fault := by
  refine ⟨firstFault_of_checkTags, fun h => ?_⟩
  cases hc : checkTags direction declared values with
  | ok u => exact absurd ((checkTags_eq_ok_iff direction declared values).mp hc) h.ne
  | error reported => rw [(firstFault_of_checkTags hc).unique h]

/-- Where the number is right, the fault is a mismatch. -/
theorem FirstFault.eq_mismatch (h : FirstFault direction declared found fault)
    (hlength : found.length = declared.length) :
    ∃ position tag expected, FirstDifference declared found position ∧
      found[position]? = some tag ∧ declared[position]? = some expected ∧
      fault = .mismatch direction position tag expected := by
  obtain ⟨position, hdifference, rfl⟩ := h
  have hbound : position < found.length := by
    refine Nat.lt_of_not_le fun hends => hdifference.differ ?_
    rw [List.getElem?_eq_none hends, List.getElem?_eq_none (hlength ▸ hends)]
  have hfound := List.getElem?_eq_getElem hbound
  have hdeclared := List.getElem?_eq_getElem (hlength ▸ hbound)
  exact ⟨position, _, _, hdifference, hfound, hdeclared, by simp only [faultAt, hfound, hdeclared]⟩

end PluginHost
