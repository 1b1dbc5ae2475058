import Mathlib.Data.List.Lex
import Mathlib.Data.String.Basic
import PluginHost.Proofs.Text.Utf8

/-! # The order of bytes

Texts are ordered by their characters. In UTF-8 that is the order of their bytes. -/

namespace PluginHost.Text

theorem ofNat_lt_ofNat {m n : Nat} (hm : m < 256) (hn : n < 256) :
    UInt8.ofNat m < UInt8.ofNat n ↔ m < n := by
  rw [UInt8.lt_iff_toNat_lt, UInt8.toNat_ofNat', UInt8.toNat_ofNat', Nat.mod_eq_of_lt hm,
    Nat.mod_eq_of_lt hn]

/-- Numbers are compared by their digits, the last one counting least. -/
theorem div_mod_lt {m n : Nat} (h : m < n) :
    m / 64 < n / 64 ∨ m / 64 = n / 64 ∧ m % 64 < n % 64 := by
  omega

/-- The bytes of a smaller character come first, whatever follows them. -/
theorem encode_append_lt {c d : Char} (h : c < d) (xs ys : List UInt8) :
    String.utf8EncodeChar c ++ xs < String.utf8EncodeChar d ++ ys := by
  have hlt : c.val.toNat < d.val.toNat := h
  have hd : d.val.toNat < 0x110000 := by
    have := d.valid
    simp only [UInt32.isValidChar, Nat.isValidChar] at this
    omega
  unfold String.utf8EncodeChar
  generalize c.val.toNat = m at hlt
  generalize d.val.toNat = n at hlt hd
  have hlast := div_mod_lt hlt
  have hthird : m / 64 < n / 64 → m / 4096 < n / 4096 ∨
      m / 4096 = n / 4096 ∧ m / 64 % 64 < n / 64 % 64 := by
    intro h
    simpa only [Nat.div_div_eq_div_mul] using div_mod_lt h
  have hsecond : m / 4096 < n / 4096 → m / 262144 < n / 262144 ∨
      m / 262144 = n / 262144 ∧ m / 4096 % 64 < n / 4096 % 64 := by
    intro h
    simpa only [Nat.div_div_eq_div_mul] using div_mod_lt h
  have hm : m / 262144 % 8 = m / 262144 := Nat.mod_eq_of_lt (by omega)
  have hn : n / 262144 % 8 = n / 262144 := Nat.mod_eq_of_lt (by omega)
  dsimp only
  -- A longer encoding begins with a greater byte; equally long ones are compared digit by digit.
  split_ifs <;>
    simp (disch := omega) only [List.cons_append, List.nil_append, List.cons_lt_cons_iff,
      ofNat_lt_ofNat, ofNat_eq_ofNat] <;> omega

theorem flatMap_encode_lt {cs ds : List Char} (h : cs < ds) :
    cs.flatMap String.utf8EncodeChar < ds.flatMap String.utf8EncodeChar := by
  induction cs generalizing ds with
  | nil =>
      cases ds with
      | nil => cases h
      | cons d ds =>
          have hne : String.utf8EncodeChar d ≠ [] := String.utf8EncodeChar_ne_nil
          cases hbytes : String.utf8EncodeChar d with
          | nil => exact absurd hbytes hne
          | cons b bs => simp [hbytes]
  | cons c cs ih =>
      cases ds with
      | nil => cases h
      | cons d ds =>
          simp only [List.flatMap_cons]
          rcases List.cons_lt_cons_iff.mp h with hlt | ⟨rfl, hrest⟩
          · exact encode_append_lt hlt _ _
          · exact List.append_left_lt (ih hrest)

theorem bytes_lt_of_lt {a b : String} (h : a < b) : bytes a < bytes b := by
  rw [bytes_eq, bytes_eq]
  exact flatMap_encode_lt h

end PluginHost.Text
