import PluginHost.Proofs.Number.Literals
import PluginHost.Proofs.Text.Pieces
import PluginHost.Proofs.Value.Contents
import PluginHost.Value.Text

/-! # Literals and texts of values

A value that is read from a literal is read again from its own text. The text of a value is a
literal of it, unless elements of a list are lost between its commas. -/

namespace PluginHost.CallValue

theorem exists_parseError_of_parse {tag : TypeTag} {literal : String} {e : HostError}
    (h : parse tag literal = .error e) : ∃ message, e = .parseError message := by
  cases tag with
  | boolean | double =>
      unfold parse at h
      dsimp only at h
      split at h
      · cases h
      · cases h
        exact ⟨_, rfl⟩
  | int | uint | int64 | uint64 =>
      obtain ⟨fault, _, rfl⟩ := (mapError_eq_error_iff _ _ _).mp (map_eq_error.mp h)
      exact ⟨_, rfl⟩
  | string | stringList | bytes => cases h

/-! ## Truth values -/

theorem readBoolean_eq_some_iff {cs : List Char} {b : Bool} :
    readBoolean cs = some b ↔ cs = (text (.boolean b)).toList := by
  constructor
  · intro h
    unfold readBoolean at h
    split at h
    · cases h
      rfl
    · cases h
      rfl
    · cases h
  · rintro rfl
    cases b <;> rfl

theorem parse_boolean_eq_ok_iff {literal : String} {v : CallValue} :
    parse .boolean literal = .ok v ↔ v.tag = .boolean ∧ literal = v.text := by
  have hread (b : Bool) : readBoolean literal.toList = some b ↔ literal = text (.boolean b) := by
    rw [readBoolean_eq_some_iff, String.toList_inj]
  unfold parse
  dsimp only
  constructor
  · intro h
    split at h
    next b hb =>
      cases h
      exact ⟨rfl, (hread b).mp hb⟩
    next => cases h
  · rintro ⟨htag, hliteral⟩
    cases v with
    | boolean b => rw [(hread b).mpr hliteral]
    | _ => cases htag

/-! ## Integers -/

section

variable {d : Dialect} {cs : List Char} {k : Nat} {type : String} {v : CallValue}
  {wording : Number.IntegerFault → HostError}

/-- Where there are negative numbers, a literal is read as the integer that it denotes is read as
data. -/
theorem readInt_like_data {value : Int → CallValue} :
    ((Number.readInt 10 (twoTo k) (twoTo k - 1) cs).mapError wording).map value = .ok v ↔
      ∃ n, Number.Denotes True cs n ∧
        (Decode.integer d type (-(twoTo k : Int)) (twoTo k - 1) (.integer n)).map value =
          .ok v := by
  have hpos := twoTo_pos k
  simp only [map_eq_ok, mapError_eq_ok_iff, Number.readInt_eq_ok_iff, Decode.integer_eq_ok]
  constructor
  · rintro ⟨n, ⟨hn, hlow, hhigh⟩, hv⟩
    exact ⟨n, hn, n, ⟨rfl, hlow, by omega⟩, hv⟩
  · rintro ⟨n, hn, _, ⟨⟨⟩, hlow, hhigh⟩, hv⟩
    exact ⟨n, ⟨hn, hlow, by omega⟩, hv⟩

/-- Where there are none, too. -/
theorem readNat_like_data {value : Nat → CallValue} :
    ((Number.readNat 10 (twoTo k - 1) cs).mapError wording).map value = .ok v ↔
      ∃ n, Number.Denotes False cs n ∧
        (Decode.integer d type 0 (twoTo k - 1) (.integer n)).map (fun m => value m.toNat) =
          .ok v := by
  have hpos := twoTo_pos k
  simp only [map_eq_ok, mapError_eq_ok_iff, Number.readNat_eq_ok_iff, Decode.integer_eq_ok]
  constructor
  · rintro ⟨n, ⟨hn, hlimit⟩, hv⟩
    exact ⟨n, hn, n, ⟨rfl, by omega, by omega⟩, hv⟩
  · rintro ⟨n, hn, _, ⟨⟨⟩, hlow, hhigh⟩, hv⟩
    obtain ⟨m, rfl⟩ := Int.eq_ofNat_of_zero_le hlow
    exact ⟨m, ⟨hn, by omega⟩, hv⟩

end

/-- Under an integer type, a literal is read as the integer that it denotes is read as data. -/
theorem parse_like_data {tag : TypeTag} {least greatest : Int}
    (h : tag.range? = some (least, greatest)) {literal : String} {v : CallValue} :
    parse tag literal = .ok v ↔
      ∃ n, Number.Denotes (least < 0) literal.toList n ∧
        ofContent Json.dialect tag (.integer n) = .ok v := by
  cases tag with
  | int =>
      cases h
      rw [eq_true (by decide : -(twoTo 31 : Int) < 0)]
      exact readInt_like_data
  | uint =>
      cases h
      rw [eq_false (Int.lt_irrefl 0)]
      exact readNat_like_data
  | int64 =>
      cases h
      rw [eq_true (by decide : -(twoTo 63 : Int) < 0)]
      exact readInt_like_data
  | uint64 =>
      cases h
      rw [eq_false (Int.lt_irrefl 0)]
      exact readNat_like_data
  | boolean | double | string | stringList | bytes => cases h

/-- A literal of an integer type denotes an integer in the range of the type, and is read as it. -/
theorem parse_integer_eq_ok_iff {tag : TypeTag} {least greatest : Int}
    (h : tag.range? = some (least, greatest)) {literal : String} {v : CallValue} :
    parse tag literal = .ok v ↔
      ∃ n, Number.Denotes (least < 0) literal.toList n ∧ (least ≤ n ∧ n ≤ greatest) ∧
        v.tag = tag ∧ v.integer? = some n := by
  rw [parse_like_data h]
  simp only [ofContent_eq_ok_iff h]
  constructor
  · rintro ⟨n, hn, _, ⟨⟩, hv⟩
    exact ⟨n, hn, hv⟩
  · rintro ⟨n, hn, hv⟩
    exact ⟨n, hn, n, rfl, hv⟩

theorem toList_text_of_integer? {v : CallValue} {n : Int} (h : v.integer? = some n) :
    v.text.toList = Number.intDigits n := by
  cases v with
  | int | uint | int64 | uint64 =>
      cases h
      exact String.toList_ofList
  | boolean | double | string | stringList | bytes => cases h

theorem parse_text_of_integer? {v : CallValue} {n : Int} (h : v.integer? = some n) :
    parse v.tag v.text = .ok v := by
  obtain ⟨least, greatest, hrange, hleast, hgreatest⟩ := integer?_bounds h
  refine (parse_integer_eq_ok_iff hrange).mpr ⟨n, ?_, ⟨hleast, hgreatest⟩, rfl, h⟩
  rw [toList_text_of_integer? h]
  exact Number.denotes_intDigits fun hn => Int.lt_of_le_of_lt hleast hn

/-! ## Lists -/

/-- An element that is found again between commas. -/
def Separable (item : String) : Prop :=
  item ≠ "" ∧ ',' ∉ item.toList

theorem separable_of_mem_readList {cs : List Char} {item : String} (h : item ∈ readList cs) :
    Separable item := by
  obtain ⟨piece, hpiece, rfl⟩ := List.mem_map.mp h
  obtain ⟨hmem, hne⟩ := List.mem_filter.mp hpiece
  rw [Separable, String.toList_ofList]
  refine ⟨fun hempty => ?_, Text.not_mem_of_mem_pieces hmem⟩
  rw [String.ofList_eq_empty_iff] at hempty
  simp [hempty] at hne

/-- What stands between the commas of a list's text is its elements, if each of them is found
again. -/
theorem readList_text {items : List String} (h : ∀ item ∈ items, Separable item) :
    readList (text (.stringList items)).toList = items := by
  have hlists : (text (.stringList items)).toList = [','].intercalate (items.map String.toList) :=
    String.toList_intercalate
  cases items with
  | nil => rfl
  | cons first more =>
      have hcommas : ∀ cs ∈ (first :: more).map String.toList, ',' ∉ cs := by
        intro cs hcs
        obtain ⟨item, hitem, rfl⟩ := List.mem_map.mp hcs
        exact (h item hitem).2
      have hfull : ((first :: more).map String.toList).filter (fun piece => !piece.isEmpty) =
          (first :: more).map String.toList := by
        refine List.filter_eq_self.mpr fun cs hcs => ?_
        obtain ⟨item, hitem, rfl⟩ := List.mem_map.mp hcs
        simpa using (h item hitem).1
      rw [readList, hlists, Text.pieces_intercalate (by simp) hcommas, hfull, List.map_map]
      simp

theorem parse_text_list_iff (items : List String) :
    parse .stringList (text (.stringList items)) = .ok (.stringList items) ↔
      ∀ item ∈ items, Separable item := by
  have hparse : parse .stringList (text (.stringList items)) =
      .ok (.stringList (readList (text (.stringList items)).toList)) := rfl
  rw [hparse, Except.ok.injEq, stringList.injEq]
  constructor
  · intro h item hitem
    rw [← h] at hitem
    exact separable_of_mem_readList hitem
  · exact readList_text

/-! ## Literals and texts -/

/-- What is read under a type is of this type. -/
theorem tag_of_parse {tag : TypeTag} {literal : String} {v : CallValue}
    (h : parse tag literal = .ok v) : v.tag = tag := by
  cases tag with
  | boolean => exact (parse_boolean_eq_ok_iff.mp h).1
  | int | uint | int64 | uint64 =>
      obtain ⟨_, _, _, htag, _⟩ := (parse_integer_eq_ok_iff rfl).mp h
      exact htag
  | double =>
      unfold parse at h
      dsimp only at h
      split at h <;> cases h
      rfl
  | string | stringList | bytes =>
      cases h
      rfl

theorem parse_text {v : CallValue} (hdouble : v.tag ≠ .double) (hbytes : v.tag ≠ .bytes)
    (hlist : v.tag ≠ .stringList) : parse v.tag v.text = .ok v := by
  cases v with
  | boolean b => exact parse_boolean_eq_ok_iff.mpr ⟨rfl, rfl⟩
  | int n => exact parse_text_of_integer? (v := .int n) rfl
  | uint n => exact parse_text_of_integer? (v := .uint n) rfl
  | int64 n => exact parse_text_of_integer? (v := .int64 n) rfl
  | uint64 n => exact parse_text_of_integer? (v := .uint64 n) rfl
  | string s => rfl
  | double => exact absurd rfl hdouble
  | stringList => exact absurd rfl hlist
  | bytes => exact absurd rfl hbytes

theorem separable_of_parse {literal : String} {items : List String}
    (h : parse .stringList literal = .ok (.stringList items)) : ∀ item ∈ items, Separable item := by
  cases h
  exact fun item hitem => separable_of_mem_readList hitem

/-- Doubles and bytes apart, a value that is read is read again from its own text, and the text of a
value is a literal of it, for a list under a condition on its elements. An integer type takes the
literals of the integers in its range. -/
theorem literals_and_texts :
    (∀ tag literal v, tag ≠ .double → tag ≠ .bytes → parse tag literal = .ok v →
      v.holds tag = true ∧ parse tag v.text = .ok v) ∧
    (∀ tag least greatest literal, tag.range? = some (least, greatest) →
      ((∃ v, parse tag literal = .ok v) ↔
        ∃ n, Number.Denotes (least < 0) literal.toList n ∧ least ≤ n ∧ n ≤ greatest) ∧
      ∀ v n, parse tag literal = .ok v → Number.Denotes (least < 0) literal.toList n →
        v.integer? = some n) ∧
    (∀ v : CallValue, v.tag ≠ .double → v.tag ≠ .bytes → v.tag ≠ .stringList →
      parse v.tag v.text = .ok v) ∧
    (∀ items, parse .stringList (text (.stringList items)) = .ok (.stringList items) ↔
      ∀ item ∈ items, Separable item) ∧
    (∀ literal items, parse .stringList literal = .ok (.stringList items) →
      ∀ item ∈ items, Separable item) ∧
    ∀ tag literal e, parse tag literal = .error e → ∃ message, e = .parseError message := by
  refine ⟨?_, ?_, fun v => parse_text, parse_text_list_iff, fun literal items => separable_of_parse,
    fun tag literal e => exists_parseError_of_parse⟩
  · intro tag literal v hdouble hbytes h
    have htag := tag_of_parse h
    refine ⟨beq_iff_eq.mpr htag, ?_⟩
    by_cases hlist : tag = .stringList
    · subst hlist
      cases v with
      | stringList items => exact (parse_text_list_iff items).mpr (separable_of_parse h)
      | _ => cases htag
    · subst htag
      exact parse_text hdouble hbytes hlist
  · intro tag least greatest literal hrange
    refine ⟨⟨?_, ?_⟩, ?_⟩
    · rintro ⟨v, hv⟩
      obtain ⟨n, hn, hin, _⟩ := (parse_integer_eq_ok_iff hrange).mp hv
      exact ⟨n, hn, hin⟩
    · rintro ⟨n, hn, hleast, hgreatest⟩
      obtain ⟨v, hv, _⟩ := exists_ofContent_integer (d := Json.dialect) hrange hleast hgreatest
      exact ⟨v, (parse_like_data hrange).mpr ⟨n, hn, hv⟩⟩
    · intro v n hv hn
      obtain ⟨m, hm, _, _, hvalue⟩ := (parse_integer_eq_ok_iff hrange).mp hv
      rw [hvalue, hm.unique hn]

/-- Leading zeros are lost in the text, a sign that the type has no use for is refused, and an
element with a comma in it comes back as two. -/
theorem literals_and_texts_signed :
    parse .int64 "-0042" = .ok (.int64 (-42)) ∧
      parse .int64 (text (.int64 (-42))) = .ok (.int64 (-42)) ∧
      (¬∃ v, parse .uint "-1" = .ok v) ∧
      parse .stringList (text (.stringList ["a,b"])) ≠ .ok (.stringList ["a,b"]) := by
  obtain ⟨hagain, hintegers, _, hlists, _⟩ := literals_and_texts
  have hread : parse .int64 "-0042" = .ok (.int64 (-42)) := by decide +kernel
  refine ⟨hread, (hagain .int64 _ _ (by decide) (by decide) hread).2, ?_, ?_⟩
  · intro h
    obtain ⟨n, hn, _⟩ := (hintegers .uint _ _ "-1" rfl).1.mp h
    exact absurd (Number.denotes_minus_iff.mp hn).1 (Int.lt_irrefl 0)
  · rw [ne_eq, hlists]
    intro h
    exact (h "a,b" (List.mem_singleton_self _)).2 (by decide)

end PluginHost.CallValue
