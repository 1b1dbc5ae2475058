import PluginHost.Proofs.Number.Digits
import PluginHost.Proofs.Results

/-! # Decimal literals of integers

A decimal literal is one or more digits, with a sign before them or without. A reader with limits
accepts exactly the literals of the integers within them. -/

namespace PluginHost.Number

/-- One or more decimal digits. -/
structure Digits (cs : List Char) : Prop where
  nonempty : cs ≠ []
  digits : ∀ c ∈ cs, c.isDigit = true

/-- A literal denotes an integer. A minus sign has no place where there are no negative numbers. -/
inductive Denotes (signed : Prop) : List Char → Int → Prop where
  | bare {cs} (h : Digits cs) : Denotes signed cs (Nat.ofDigitChars 10 cs 0)
  | plus {cs} (h : Digits cs) : Denotes signed ('+' :: cs) (Nat.ofDigitChars 10 cs 0)
  | minus {cs} (hs : signed) (h : Digits cs) :
      Denotes signed ('-' :: cs) (-(Nat.ofDigitChars 10 cs 0 : Int))

theorem not_digits_cons {c : Char} {cs : List Char} (hc : c.isDigit = false) : ¬ Digits (c :: cs) :=
  fun h => Bool.false_ne_true (hc ▸ h.digits c (List.mem_cons_self ..))

section

variable {signed : Prop} {cs : List Char} {n : Int}

theorem denotes_plus_iff :
    Denotes signed ('+' :: cs) n ↔ Digits cs ∧ n = Nat.ofDigitChars 10 cs 0 := by
  constructor
  · rintro (h | h)
    · exact absurd h (not_digits_cons rfl)
    · exact ⟨h, rfl⟩
  · rintro ⟨h, rfl⟩
    exact .plus h

theorem denotes_minus_iff :
    Denotes signed ('-' :: cs) n ↔
      signed ∧ Digits cs ∧ n = -(Nat.ofDigitChars 10 cs 0 : Int) := by
  constructor
  · rintro (h | _ | ⟨hs, h⟩)
    · exact absurd h (not_digits_cons rfl)
    · exact ⟨hs, h, rfl⟩
  · rintro ⟨hs, h, rfl⟩
    exact .minus hs h

theorem denotes_bare_iff (hplus : ∀ more, cs ≠ '+' :: more)
    (hminus : signed → ∀ more, cs ≠ '-' :: more) :
    Denotes signed cs n ↔ Digits cs ∧ n = Nat.ofDigitChars 10 cs 0 := by
  constructor
  · rintro (h | h | ⟨hs, h⟩)
    · exact ⟨h, rfl⟩
    · exact absurd rfl (hplus _)
    · exact absurd rfl (hminus hs _)
  · rintro ⟨h, rfl⟩
    exact .bare h

theorem Denotes.unique {m : Int} (hn : Denotes signed cs n) (hm : Denotes signed cs m) : n = m := by
  cases hn with
  | bare h =>
      cases hm with
      | bare => rfl
      | plus | minus => exact absurd h (not_digits_cons rfl)
  | plus => exact (denotes_plus_iff.mp hm).2.symm
  | minus => exact (denotes_minus_iff.mp hm).2.2.symm

/-- Only a minus sign makes a difference to whether there are negative numbers. -/
theorem denotes_of_no_minus (hminus : ∀ more, cs ≠ '-' :: more) :
    Denotes signed cs n ↔ ∃ m : Nat, Denotes False cs m ∧ m = n := by
  constructor
  · rintro (h | h | ⟨_, h⟩)
    · exact ⟨_, .bare h, rfl⟩
    · exact ⟨_, .plus h, rfl⟩
    · exact absurd rfl (hminus _)
  · rintro ⟨m, hm, rfl⟩
    generalize (m : Int) = n at hm
    cases hm with
    | bare h => exact .bare h
    | plus h => exact .plus h
    | minus hs => exact hs.elim

end

/-! ## Magnitudes -/

theorem digitIn?_ten (c : Char) :
    digitIn? 10 c = if c.isDigit then some (c.toNat - '0'.toNat) else none := by
  have hdigit : ('0' ≤ c ∧ c ≤ '9') ↔ c.isDigit = true := by
    rw [Char.isDigit_iff_toNat]
    exact Iff.rfl
  unfold digitIn?
  simp only [hdigit]
  split
  next hc =>
    have hbound := (Char.isDigit_iff_toNat.mp hc).2
    have hlt : c.toNat - '0'.toNat < 10 := by
      have : '0'.toNat = 48 := rfl
      have : '9'.toNat = 57 := rfl
      omega
    exact if_pos (decide_eq_true hlt)
  next =>
    -- a letter stands for ten at least
    split
    next => simp [Option.filter]
    next =>
      split
      next => simp [Option.filter]
      next => rfl

theorem le_ofDigitChars (cs : List Char) (value : Nat) : value ≤ Nat.ofDigitChars 10 cs value := by
  induction cs generalizing value with
  | nil => simp
  | cons c cs ih =>
      rw [Nat.ofDigitChars_cons]
      refine Nat.le_trans ?_ (ih _)
      omega

/-- Digits are read upwards as long as what they denote is within the limit. -/
theorem readUp_eq_ok_iff {limit value : Nat} (h : value ≤ limit) {cs : List Char} {n : Nat} :
    readUp 10 limit value cs = .ok n ↔
      (∀ c ∈ cs, c.isDigit = true) ∧ Nat.ofDigitChars 10 cs value = n ∧ n ≤ limit := by
  induction cs generalizing value with
  | nil =>
      simp only [readUp, Except.ok.injEq, Nat.ofDigitChars_nil]
      constructor
      · rintro rfl
        exact ⟨List.forall_mem_nil _, rfl, h⟩
      · exact fun hn => hn.2.1
  | cons c cs ih =>
      rw [readUp, digitIn?_ten, Nat.ofDigitChars_cons, List.forall_mem_cons, Nat.mul_comm 10]
      by_cases hc : c.isDigit = true
      · simp only [hc, if_true, true_and]
        by_cases hnext : value * 10 + (c.toNat - '0'.toNat) ≤ limit
        · rw [if_pos hnext, ih hnext]
        · -- more digits do not make the value smaller
          have hle := le_ofDigitChars cs (value * 10 + (c.toNat - '0'.toNat))
          rw [if_neg hnext]
          constructor
          · intro hfault
            cases hfault
          · rintro ⟨_, rfl, hn⟩
            omega
      · simp [hc]

theorem readMagnitude_eq_ok_iff {limit : Nat} {cs : List Char} {n : Nat} :
    readMagnitude 10 limit cs = .ok n ↔
      Digits cs ∧ Nat.ofDigitChars 10 cs 0 = n ∧ n ≤ limit := by
  cases cs with
  | nil =>
      constructor
      · nofun
      · rintro ⟨hdigits, _⟩
        exact absurd rfl hdigits.nonempty
  | cons c cs =>
      have hdigits : Digits (c :: cs) ↔ ∀ d ∈ c :: cs, d.isDigit = true :=
        ⟨Digits.digits, fun h => ⟨List.cons_ne_nil c cs, h⟩⟩
      rw [hdigits]
      exact readUp_eq_ok_iff (Nat.zero_le limit)

/-! ## Integers -/

theorem readNat_eq_ok_iff {limit : Nat} {cs : List Char} {n : Nat} :
    readNat 10 limit cs = .ok n ↔ Denotes False cs n ∧ n ≤ limit := by
  have hunsigned : False → ∀ more, cs ≠ '-' :: more := False.elim
  unfold readNat
  split
  next =>
    rw [denotes_bare_iff (by simp) hunsigned]
    constructor
    · intro h
      cases h
    · rintro ⟨⟨h, _⟩, _⟩
      exact absurd rfl h.nonempty
  next cs =>
    rw [readMagnitude_eq_ok_iff, denotes_plus_iff, Int.natCast_inj, eq_comm (a := n), and_assoc]
  next hplus =>
    rw [readMagnitude_eq_ok_iff, denotes_bare_iff hplus hunsigned, Int.natCast_inj,
      eq_comm (a := n), and_assoc]

theorem readInt_minus (base lowest highest : Nat) (cs : List Char) :
    readInt base lowest highest ('-' :: cs) =
      ((readMagnitude base lowest cs).mapError IntegerFault.below).map
        fun n : Nat => -(n : Int) := by
  rw [readInt]
  cases readMagnitude base lowest cs <;> rfl

theorem readInt_eq_ok_iff {lowest highest : Nat} {cs : List Char} {n : Int} :
    readInt 10 lowest highest cs = .ok n ↔
      Denotes True cs n ∧ -(lowest : Int) ≤ n ∧ n ≤ highest := by
  by_cases hsign : ∃ more, cs = '-' :: more
  · obtain ⟨cs, rfl⟩ := hsign
    simp only [readInt_minus, map_eq_ok, mapError_eq_ok_iff, readMagnitude_eq_ok_iff,
      denotes_minus_iff, true_and]
    constructor
    · rintro ⟨m, ⟨h, rfl, hm⟩, rfl⟩
      exact ⟨⟨h, rfl⟩, by omega, by omega⟩
    · rintro ⟨⟨h, rfl⟩, hlowest, _⟩
      exact ⟨_, ⟨h, rfl, by omega⟩, rfl⟩
  · have hminus (more : List Char) : cs ≠ '-' :: more := fun h => hsign ⟨more, h⟩
    rw [readInt, map_eq_ok, denotes_of_no_minus hminus]
    · constructor
      · rintro ⟨m, hm, rfl⟩
        obtain ⟨h, hm⟩ := readNat_eq_ok_iff.mp hm
        exact ⟨⟨m, h, rfl⟩, by simp only [Int.ofNat_eq_natCast]; omega, Int.ofNat_le.mpr hm⟩
      · rintro ⟨⟨m, h, rfl⟩, _, hhighest⟩
        exact ⟨m, readNat_eq_ok_iff.mpr ⟨h, Int.ofNat_le.mp hhighest⟩, rfl⟩
    · exact hminus

/-! ## Written integers -/

theorem digits_natDigits (n : Nat) : Digits (natDigits n) :=
  ⟨natDigits_ne_nil n, fun _ hc => isDigit_of_mem_natDigits hc⟩

/-- The literal of an integer denotes it. -/
theorem denotes_intDigits {signed : Prop} {n : Int} (h : n < 0 → signed) :
    Denotes signed (intDigits n) n := by
  have hvalue (m : Nat) : Nat.ofDigitChars 10 (natDigits m) 0 = m := Nat.ofDigitChars_ten_toDigits
  cases n with
  | ofNat m =>
      have hm : Denotes signed (natDigits m) _ := .bare (digits_natDigits m)
      rwa [hvalue] at hm
  | negSucc m =>
      have hm := Denotes.minus (h (Int.negSucc_lt_zero m)) (digits_natDigits (m + 1))
      rwa [hvalue] at hm

end PluginHost.Number
