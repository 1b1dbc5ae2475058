import PluginHost.Proofs.Json.Writing
import PluginHost.Value.Data

/-! # Types and contents in data files

A type is named by one text only. The content of a value is read under the type of the value as the
same value, and under an integer type as an integer in the range of the type or not at all. -/

namespace PluginHost

/-! ## Names of types -/

theorem TypeTag.ofRecordName?_eq_some_iff {name : String} {tag : TypeTag} :
    ofRecordName? name = some tag ↔ name = tag.recordName := by
  constructor
  · intro h
    have hname := List.find?_some (p := fun t : TypeTag => t.recordName == name) h
    exact (beq_iff_eq.mp hname).symm
  · rintro rfl
    cases tag <;> rfl

/-- How data says a type: by its name, alone or as the only member of a record, which is nothing. -/
inductive TypeTag.NamedBy : Tree → TypeTag → Prop where
  | text (tag : TypeTag) : NamedBy (.text tag.recordName) tag
  | member (tag : TypeTag) : NamedBy (.record [(.text tag.recordName, .null)] none) tag

theorem Decode.variantName_eq_ok {α : Type} {find : String → Option α} {known : List String}
    {name : String} {x : α} (h : variantName find known name = .ok x) : find name = some x := by
  unfold variantName at h
  split at h
  next y hy =>
    cases h
    exact hy
  next => cases h

theorem TypeTag.namedBy_of_ofTree {d : Dialect} {t : Tree} {tag : TypeTag}
    (h : ofTree d t = .ok tag) : NamedBy t tag := by
  unfold ofTree Decode.variant at h
  split at h
  next name =>
    rw [ofRecordName?_eq_some_iff.mp (Decode.variantName_eq_ok h)]
    exact .text tag
  next => cases h
  next => cases h
  next name value rest ending =>
    obtain ⟨found, hfound, hrest⟩ := bind_eq_ok.mp h
    dsimp only at hrest
    split at hrest
    next =>
      split at hrest
      next =>
        cases hrest
        rw [ofRecordName?_eq_some_iff.mp (Decode.variantName_eq_ok hfound)]
        exact .member tag
      next => cases hrest
      next => cases hrest
    next =>
      obtain ⟨_, hunit, _⟩ := bind_eq_ok.mp hrest
      exact absurd hunit (Decode.mismatch_ne_ok _ _ _ _)
  next => cases h
  next => cases h
  next => cases h

theorem TypeTag.NamedBy.ofTree {t : Tree} {tag : TypeTag} (h : NamedBy t tag) (d : Dialect) :
    ofTree d t = .ok tag := by
  cases h with
  | text =>
      simp [TypeTag.ofTree, Decode.variant, Decode.variantName, ofRecordName?_eq_some_iff.mpr rfl]
  | member =>
      simp [TypeTag.ofTree, Decode.variant, Decode.variantName, ofRecordName?_eq_some_iff.mpr rfl,
        bind, Except.bind, pure, Except.pure]

theorem TypeTag.recordName_injective {s t : TypeTag} (h : s.recordName = t.recordName) : s = t := by
  have hs := ofRecordName?_eq_some_iff.mpr (rfl : s.recordName = s.recordName)
  rw [h, ofRecordName?_eq_some_iff.mpr rfl] at hs
  exact (Option.some.inj hs).symm

theorem TypeTag.NamedBy.unique {t : Tree} {tag other : TypeTag} (h : NamedBy t tag)
    (hother : NamedBy t other) : other = tag := by
  cases h with
  | text =>
      generalize ht : Tree.text tag.recordName = t at hother
      cases hother with
      | text =>
          injection ht with hname
          exact (recordName_injective hname).symm
      | member => cases ht
  | member =>
      generalize ht : Tree.record [(.text tag.recordName, .null)] none = t at hother
      cases hother with
      | text => cases ht
      | member =>
          injection ht with hmembers
          simp only [List.cons.injEq, Prod.mk.injEq, MemberName.text.injEq, and_true] at hmembers
          exact (recordName_injective hmembers).symm

/-! ## Contents -/

/-- The least and the greatest value of an integer type. -/
def TypeTag.range? : TypeTag → Option (Int × Int)
  | .int => some (-(twoTo 31 : Int), twoTo 31 - 1)
  | .uint => some (0, twoTo 32 - 1)
  | .int64 => some (-(twoTo 63 : Int), twoTo 63 - 1)
  | .uint64 => some (0, twoTo 64 - 1)
  | _ => none

namespace CallValue

/-- The integer that a value of an integer type is. -/
def integer? : CallValue → Option Int
  | .int n => some n.toInt
  | .uint n => some n.toNat
  | .int64 n => some n.toInt
  | .uint64 n => some n.toNat
  | _ => none

theorem tag_of_ofContent {d : Dialect} {tag : TypeTag} {t : Tree} {v : CallValue}
    (h : ofContent d tag t = .ok v) : v.tag = tag := by
  cases tag <;>
  · obtain ⟨x, _, rfl⟩ := map_eq_ok.mp h
    rfl

theorem eq_of_integer? {v w : CallValue} (htag : v.tag = w.tag) {n : Int}
    (hv : v.integer? = some n) (hw : w.integer? = some n) : v = w := by
  have hsame := hv.trans hw.symm
  cases v <;> cases w <;> first | cases htag; done | cases hv; done | skip
  case int m k =>
    exact congrArg _ (Int32.toInt_inj.mp (Option.some.inj hsame))
  case uint m k =>
    exact congrArg _ (UInt32.toNat_inj.mp (Int.ofNat.inj (Option.some.inj hsame)))
  case int64 m k =>
    exact congrArg _ (Int64.toInt_inj.mp (Option.some.inj hsame))
  case uint64 m k =>
    exact congrArg _ (UInt64.toNat_inj.mp (Int.ofNat.inj (Option.some.inj hsame)))

theorem exists_ofContent_integer {d : Dialect} {tag : TypeTag} {least greatest n : Int}
    (h : tag.range? = some (least, greatest)) (hleast : least ≤ n) (hgreatest : n ≤ greatest) :
    ∃ v, ofContent d tag (.integer n) = .ok v ∧ v.tag = tag ∧ v.integer? = some n := by
  cases tag with
  | int =>
      cases h
      refine ⟨_, map_eq_ok.mpr ⟨n, Decode.integer_eq_ok.mpr ⟨rfl, hleast, hgreatest⟩, rfl⟩, rfl, ?_⟩
      rw [twoTo_31] at hleast hgreatest
      exact congrArg some (Int32.toInt_ofInt_of_le (by omega) (by omega))
  | uint =>
      cases h
      refine ⟨_, map_eq_ok.mpr ⟨n, Decode.integer_eq_ok.mpr ⟨rfl, hleast, hgreatest⟩, rfl⟩, rfl, ?_⟩
      rw [twoTo_32] at hgreatest
      have hsmall : n.toNat < UInt32.size := by
        rw [UInt32.size]
        omega
      rw [integer?, UInt32.toNat_ofNat_of_lt' hsmall, Int.toNat_of_nonneg hleast]
  | int64 =>
      cases h
      refine ⟨_, map_eq_ok.mpr ⟨n, Decode.integer_eq_ok.mpr ⟨rfl, hleast, hgreatest⟩, rfl⟩, rfl, ?_⟩
      rw [twoTo_63] at hleast hgreatest
      exact congrArg some (Int64.toInt_ofInt_of_le (by omega) (by omega))
  | uint64 =>
      cases h
      refine ⟨_, map_eq_ok.mpr ⟨n, Decode.integer_eq_ok.mpr ⟨rfl, hleast, hgreatest⟩, rfl⟩, rfl, ?_⟩
      rw [twoTo_64] at hgreatest
      have hsmall : n.toNat < UInt64.size := by
        rw [UInt64.size]
        omega
      rw [integer?, UInt64.toNat_ofNat_of_lt' hsmall, Int.toNat_of_nonneg hleast]
  | boolean | double | string | stringList | bytes => cases h

/-- A content of an integer type is an integer in the range of the type, and is read as itself. -/
theorem ofContent_eq_ok_iff {d : Dialect} {tag : TypeTag} {least greatest : Int}
    (h : tag.range? = some (least, greatest)) {t : Tree} {v : CallValue} :
    ofContent d tag t = .ok v ↔
      ∃ n, t = .integer n ∧ (least ≤ n ∧ n ≤ greatest) ∧ v.tag = tag ∧ v.integer? = some n := by
  have hinteger (hv : ofContent d tag t = .ok v) :
      ∃ n, t = .integer n ∧ least ≤ n ∧ n ≤ greatest := by
    cases tag with
    | int | uint | int64 | uint64 =>
        cases h
        obtain ⟨n, hn, _⟩ := map_eq_ok.mp hv
        exact ⟨n, Decode.integer_eq_ok.mp hn⟩
    | boolean | double | string | stringList | bytes => cases h
  constructor
  · intro hv
    obtain ⟨n, rfl, hleast, hgreatest⟩ := hinteger hv
    obtain ⟨w, hw, htag, hn⟩ := exists_ofContent_integer h hleast hgreatest
    cases hw.symm.trans hv
    exact ⟨n, rfl, ⟨hleast, hgreatest⟩, htag, hn⟩
  · rintro ⟨n, rfl, ⟨hleast, hgreatest⟩, htag, hn⟩
    obtain ⟨w, hw, hwtag, hwn⟩ := exists_ofContent_integer h hleast hgreatest
    rw [hw, eq_of_integer? (htag.trans hwtag.symm) hn hwn]

theorem integer?_bounds {v : CallValue} {n : Int} (h : v.integer? = some n) :
    ∃ least greatest, v.tag.range? = some (least, greatest) ∧ least ≤ n ∧ n ≤ greatest := by
  cases v with
  | int m =>
      cases h
      have := m.le_toInt
      have := m.toInt_lt
      refine ⟨_, _, rfl, ?_⟩
      rw [twoTo_31]
      omega
  | uint m =>
      cases h
      have := m.toNat_lt
      refine ⟨_, _, rfl, ?_⟩
      rw [twoTo_32]
      omega
  | int64 m =>
      cases h
      have := m.le_toInt
      have := m.toInt_lt
      refine ⟨_, _, rfl, ?_⟩
      rw [twoTo_63]
      omega
  | uint64 m =>
      cases h
      have := m.toNat_lt
      refine ⟨_, _, rfl, ?_⟩
      rw [twoTo_64]
      omega
  | _ => cases h

/-- Every integer type lies within sixty-four bits, with a sign or without. -/
theorem range?_within {tag : TypeTag} {least greatest : Int}
    (h : tag.range? = some (least, greatest)) :
    -(twoTo 63 : Int) ≤ least ∧ greatest < twoTo 64 := by
  cases tag <;> cases h <;> decide

theorem exact_of_integer? {v : CallValue} {n : Int} (h : v.integer? = some n) :
    (Datum.integer n).Exact := by
  obtain ⟨least, greatest, hrange, hleast, hgreatest⟩ := integer?_bounds h
  obtain ⟨hlow, hhigh⟩ := range?_within hrange
  exact .integer (by omega) (by omega)

theorem ofContent_of_integer? (d : Dialect) {v : CallValue} {n : Int} (h : v.integer? = some n) :
    ofContent d v.tag (.integer n) = .ok v := by
  obtain ⟨least, greatest, hrange, hbounds⟩ := integer?_bounds h
  exact (ofContent_eq_ok_iff hrange).mpr ⟨n, rfl, hbounds, rfl, h⟩

theorem exact_content {v : CallValue} (h : v.tag ≠ .double) : v.content.Exact := by
  cases v with
  | boolean b => exact .bool b
  | int n => exact exact_of_integer? (v := .int n) rfl
  | uint n => exact exact_of_integer? (v := .uint n) rfl
  | int64 n => exact exact_of_integer? (v := .int64 n) rfl
  | uint64 n => exact exact_of_integer? (v := .uint64 n) rfl
  | double x => exact absurd rfl h
  | string s => exact .text s
  | stringList items =>
      refine .list fun x hx => ?_
      obtain ⟨s, _, rfl⟩ := List.mem_map.mp hx
      exact .text s
  | bytes data =>
      refine .list fun x hx => ?_
      obtain ⟨b, _, rfl⟩ := List.mem_map.mp hx
      have := b.toNat_lt
      exact .integer (by have := twoTo_pos 63; omega) (by rw [twoTo_64]; omega)

theorem ofContent_content (d : Dialect) (v : CallValue) :
    ofContent d v.tag v.content.toTree = .ok v := by
  cases v with
  | boolean b => rfl
  | int n => exact ofContent_of_integer? d (v := .int n) rfl
  | uint n => exact ofContent_of_integer? d (v := .uint n) rfl
  | int64 n => exact ofContent_of_integer? d (v := .int64 n) rfl
  | uint64 n => exact ofContent_of_integer? d (v := .uint64 n) rfl
  | double x => rfl
  | string s => rfl
  | stringList items =>
      simp only [tag, content, ofContent, Decode.list_text]
      rfl
  | bytes data =>
      let byte (t : Tree) := (Decode.integer d "u8" 0 255 t).map fun n => UInt8.ofNat n.toNat
      have hbyte (b : UInt8) (_ : b ∈ data) : byte (Datum.integer b.toNat).toTree = .ok (id b) := by
        refine map_eq_ok.mpr ⟨b.toNat, Decode.integer_eq_ok.mpr ⟨rfl, ?_⟩, ?_⟩
        · have := b.toNat_lt
          omega
        · simp
      have hlist := Decode.list_map d hbyte
      rw [List.map_id] at hlist
      exact map_eq_ok.mpr ⟨data, hlist, rfl⟩

/-- Whatever is read of a content, it can be kept until its type is known. -/
theorem readItems_of_items {α : Type} {decode : Tree → Decoded α} {depth : Nat}
    (h : ∀ {t x}, decode t = .ok x → t.readWhole depth = .ok ()) {ts : List Tree} {xs : List α}
    (hitems : Decode.items decode ts = .ok xs) : Tree.readItems depth ts = .ok () := by
  induction ts generalizing xs with
  | nil => rfl
  | cons t rest ih =>
      obtain ⟨x, hx, hmore⟩ := bind_eq_ok.mp hitems
      obtain ⟨more, hmore, _⟩ := bind_eq_ok.mp hmore
      exact bind_eq_ok.mpr ⟨(), h hx, ih hmore⟩

theorem readWhole_of_list {α : Type} {d : Dialect} {decode : Tree → Decoded α} {depth : Nat}
    (h : ∀ {t x}, decode t = .ok x → t.readWhole depth = .ok ()) {t : Tree} {xs : List α}
    (hlist : Decode.list d decode t = .ok xs) : t.readWhole (depth + 1) = .ok () := by
  unfold Decode.list at hlist
  split at hlist
  next ts ending =>
    obtain ⟨more, hmore, hending⟩ := bind_eq_ok.mp hlist
    obtain ⟨_, hraise, _⟩ := bind_eq_ok.mp hending
    refine bind_eq_ok.mpr ⟨(), readItems_of_items h hmore, ?_⟩
    cases ending with
    | none => rfl
    | some fault => cases hraise
  next => exact absurd hlist (Decode.mismatch_ne_ok _ _ _ _)

theorem readWhole_of_bool {d : Dialect} {t : Tree} {b : Bool} (h : Decode.bool d t = .ok b)
    (depth : Nat) : t.readWhole depth = .ok () := by
  unfold Decode.bool at h
  split at h
  next => rfl
  next => exact absurd h (Decode.mismatch_ne_ok _ _ _ _)

theorem readWhole_of_double {d : Dialect} {t : Tree} {x : Binary64} (h : Decode.double d t = .ok x)
    (depth : Nat) : t.readWhole depth = .ok () := by
  unfold Decode.double at h
  split at h
  next => rfl
  next => rfl
  next => exact absurd h (Decode.mismatch_ne_ok _ _ _ _)

theorem readWhole_of_text {d : Dialect} {t : Tree} {s : String} (h : Decode.text d t = .ok s)
    (depth : Nat) : t.readWhole depth = .ok () := by
  unfold Decode.text Decode.textAs at h
  split at h
  next => rfl
  next => exact absurd h (Decode.mismatch_ne_ok _ _ _ _)

theorem readWhole_of_integer {d : Dialect} {type : String} {least greatest n : Int} {t : Tree}
    (h : Decode.integer d type least greatest t = .ok n) (depth : Nat) :
    t.readWhole depth = .ok () := by
  obtain ⟨rfl, _⟩ := Decode.integer_eq_ok.mp h
  rfl

theorem readWhole_of_ofContent {d : Dialect} {tag : TypeTag} {t : Tree} {v : CallValue}
    (h : ofContent d tag t = .ok v) : t.readWhole keptDepth = .ok () := by
  cases tag with
  | boolean =>
      obtain ⟨b, hb, _⟩ := map_eq_ok.mp h
      exact readWhole_of_bool hb _
  | int | uint | int64 | uint64 =>
      obtain ⟨n, hn, _⟩ := map_eq_ok.mp h
      exact readWhole_of_integer hn _
  | double =>
      obtain ⟨x, hx, _⟩ := map_eq_ok.mp h
      exact readWhole_of_double hx _
  | string =>
      obtain ⟨s, hs, _⟩ := map_eq_ok.mp h
      exact readWhole_of_text hs _
  | stringList =>
      obtain ⟨items, hitems, _⟩ := map_eq_ok.mp h
      exact readWhole_of_list (fun hs => readWhole_of_text hs _) hitems
  | bytes =>
      obtain ⟨data, hdata, _⟩ := map_eq_ok.mp h
      refine readWhole_of_list (fun hbyte => ?_) hdata
      obtain ⟨n, hn, _⟩ := map_eq_ok.mp hbyte
      exact readWhole_of_integer hn _

end CallValue

end PluginHost
