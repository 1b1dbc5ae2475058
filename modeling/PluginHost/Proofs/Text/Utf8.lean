import Mathlib.Tactic.SplitIfs
import PluginHost.Text.Utf8

/-! # Texts in UTF-8

The bytes of a text are read as that text, and none of them is 0 unless the text has a NUL
character. -/

namespace PluginHost.Text

theorem bytes_eq (s : String) : bytes s = s.toList.flatMap String.utf8EncodeChar := by
  rw [bytes, String.toUTF8, ← String.utf8Encode_toList, List.utf8Encode, List.data_toByteArray]

/-! ## Reading back -/

/-- Bytes that begin with those of a character begin with that character. -/
theorem front?_encode (c : Char) (rest : List UInt8) :
    front? (String.utf8EncodeChar c ++ rest) = some c := by
  have hlength : (String.utf8EncodeChar c).length ≤ 4 := by
    rw [String.length_utf8EncodeChar]
    exact c.utf8Size_le_four
  rw [front?, List.take_append, List.take_of_length_le hlength, List.toByteArray_append,
    ByteArray.utf8DecodeChar?_utf8EncodeChar_append]

theorem decodeFrom_skip (xs rest : List UInt8) :
    decodeFrom xs.length (xs ++ rest) = decodeFrom 0 rest := by
  induction xs with
  | nil => rfl
  | cons x xs ih => exact ih

theorem decodeFrom_encode (c : Char) (rest : List UInt8) :
    decodeFrom 0 (String.utf8EncodeChar c ++ rest) = c :: decodeFrom 0 rest := by
  have hfront := front?_encode c rest
  have hlength := String.length_utf8EncodeChar c
  cases hc : String.utf8EncodeChar c with
  | nil => exact absurd hc String.utf8EncodeChar_ne_nil
  | cons b bs =>
      rw [hc, List.cons_append] at hfront
      rw [hc, List.length_cons] at hlength
      rw [List.cons_append, decodeFrom, hfront]
      dsimp only
      rw [← hlength, Nat.add_sub_cancel, decodeFrom_skip]

theorem decode_bytes (s : String) : decode (bytes s) = s := by
  have hchars : ∀ cs : List Char, decodeFrom 0 (cs.flatMap String.utf8EncodeChar) = cs := by
    intro cs
    induction cs with
    | nil => rfl
    | cons c cs ih => rw [List.flatMap_cons, decodeFrom_encode, ih]
  rw [decode, bytes_eq, hchars, String.ofList_toList]

/-- What is no text becomes one: a broken character at the end, and a byte that begins none. -/
example : decode [0x61, 0xff, 0x62, 0xe2, 0x82] = "a\uFFFDb\uFFFD" := by
  decide +kernel

/-! ## Bytes 0 -/

theorem ofNat_eq_ofNat {m n : Nat} (hm : m < 256) (hn : n < 256) :
    UInt8.ofNat m = UInt8.ofNat n ↔ m = n := by
  rw [← UInt8.toNat_inj, UInt8.toNat_ofNat', UInt8.toNat_ofNat', Nat.mod_eq_of_lt hm,
    Nat.mod_eq_of_lt hn]

theorem zero_mem_encode_iff (c : Char) : 0 ∈ String.utf8EncodeChar c ↔ c = '\x00' := by
  have hzero : c = '\x00' ↔ c.val.toNat = 0 := by
    rw [← Char.toNat_inj]
    rfl
  have hbyte {n : Nat} (hn : n < 256) : 0 = UInt8.ofNat n ↔ 0 = n := ofNat_eq_ofNat (by decide) hn
  rw [hzero]
  unfold String.utf8EncodeChar
  generalize c.val.toNat = v
  dsimp only
  split_ifs with hsingle
  · rw [List.mem_singleton, hbyte (by omega)]
    exact eq_comm
  -- none of several bytes is below 128
  all_goals
    simp (disch := omega) only [List.mem_cons, List.not_mem_nil, or_false, hbyte]
    omega

theorem zero_mem_bytes_iff (s : String) : 0 ∈ bytes s ↔ '\x00' ∈ s.toList := by
  simp only [bytes_eq, List.mem_flatMap, zero_mem_encode_iff, exists_eq_right]

end PluginHost.Text
