import PluginHost.Binary64.Literal
import PluginHost.Text.Quoted

/-! # Digits of a number

The decimal and the hexadecimal digits of a number denote it again. -/

namespace PluginHost

theorem twoTo_31 : twoTo 31 = 2147483648 := rfl

theorem twoTo_32 : twoTo 32 = 4294967296 := rfl

theorem twoTo_63 : twoTo 63 = 9223372036854775808 := rfl

theorem twoTo_64 : twoTo 64 = 18446744073709551616 := rfl

namespace Number

theorem natDigits_ne_nil (n : Nat) : natDigits n ≠ [] :=
  Nat.toDigits_ne_nil

theorem isDigit_of_mem_natDigits {n : Nat} {c : Char} (h : c ∈ natDigits n) : c.isDigit = true :=
  Nat.isDigit_of_mem_toDigits (by decide) (by decide) h

theorem digitsValue_natDigits (n : Nat) : Binary64.digitsValue 0 (natDigits n) = n := by
  have h : Nat.ofDigitChars 10 (Nat.toDigits 10 n) 0 = n := Nat.ofDigitChars_ten_toDigits
  rw [Nat.ofDigitChars_eq_foldl] at h
  simpa only [Binary64.digitsValue, natDigits, Nat.mul_comm 10] using h

/-- Only the number zero begins with the digit zero. -/
theorem head_toDigits_ne_zero {n : Nat} (h : 0 < n) : (Nat.toDigits 10 n).head? ≠ some '0' := by
  induction n using Nat.strongRecOn with
  | ind n ih =>
      rw [Nat.toDigits_eq_if (by decide)]
      split
      next hsmall =>
        intro hzero
        have : n = 0 := Nat.digitChar_eq_zero.mp (Option.some.inj hzero)
        omega
      next hlarge =>
        rw [List.head?_append, Option.or_of_isSome (List.isSome_head?.mpr Nat.toDigits_ne_nil)]
        exact ih (n / 10) (by omega) (by omega)

theorem natDigits_ne_zero_cons (n : Nat) (c : Char) (rest : List Char) :
    natDigits n ≠ '0' :: c :: rest := by
  intro h
  rcases Nat.eq_zero_or_pos n with rfl | hpos
  · cases h
  · exact head_toDigits_ne_zero hpos (congrArg List.head? h)

/-! ## Hexadecimal digits -/

theorem digitIn?_digitChar {d : Nat} (h : d < 16) : digitIn? 16 d.digitChar = some d := by
  have hall : ∀ d < 16, digitIn? 16 d.digitChar = some d := by decide
  exact hall d h

theorem exists_digitChar_of_mem_hexDigits {n : Nat} {c : Char} (h : c ∈ Text.hexDigits n) :
    ∃ d < 16, c = d.digitChar := by
  induction n using Nat.strongRecOn with
  | ind n ih =>
      rw [Text.hexDigits, Nat.toDigits_eq_if (by decide)] at h
      split at h
      next hsmall => exact ⟨n, hsmall, List.mem_singleton.mp h⟩
      next hlarge =>
        rcases List.mem_append.mp h with h | h
        · exact ih (n / 16) (by omega) h
        · exact ⟨n % 16, Nat.mod_lt _ (by decide), List.mem_singleton.mp h⟩

theorem readUp_append (base limit : Nat) (value : Nat) (before after : List Char) :
    readUp base limit value (before ++ after) =
      match readUp base limit value before with
      | .ok next => readUp base limit next after
      | .error fault => .error fault := by
  induction before generalizing value with
  | nil => rfl
  | cons c cs ih =>
      simp only [List.cons_append, readUp]
      cases digitIn? base c with
      | none => rfl
      | some digit =>
          simp only
          split
          · exact ih _
          · rfl

theorem readUp_hexDigits {limit n : Nat} (h : n ≤ limit) :
    readUp 16 limit 0 (Text.hexDigits n) = .ok n := by
  induction n using Nat.strongRecOn with
  | ind n ih =>
      rw [Text.hexDigits, Nat.toDigits_eq_if (by decide)]
      split
      next hsmall => simp [readUp, digitIn?_digitChar hsmall, h]
      next hlarge =>
        have hhead := ih (n / 16) (by omega) (by omega)
        have hlast : n % 16 < 16 := Nat.mod_lt _ (by decide)
        have hvalue : n / 16 * 16 + n % 16 = n := by omega
        rw [Text.hexDigits] at hhead
        simp [readUp_append, hhead, readUp, digitIn?_digitChar hlast, hvalue, h]

theorem readNat_hexDigits {limit n : Nat} (h : n ≤ limit) :
    readNat 16 limit (Text.hexDigits n) = .ok n := by
  have hread := readUp_hexDigits h
  have hne : Text.hexDigits n ≠ [] := Nat.toDigits_ne_nil
  obtain ⟨c, cs, hcons⟩ := List.exists_cons_of_ne_nil hne
  rw [hcons] at hread ⊢
  have hplus : c ≠ '+' := by
    rintro rfl
    simp [readUp, digitIn?] at hread
  simp [readNat, hplus, readMagnitude, hread]

end Number

end PluginHost
