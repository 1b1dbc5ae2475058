import PluginHost.Json.Grammar
import PluginHost.Proofs.Text.Pieces

/-! # Numbers and texts of a JSON document

However a number or a text is spelled, it is read to its end and as what it says. -/

namespace PluginHost.Json

open Text

/-! ## Numbers -/

/-- A number ends here: what follows, if anything, does not go on with it. -/
def EndsNumber (rest : List Char) : Prop :=
  ∀ c ∈ rest.head?, c.isDigit = false ∧ c ≠ '.' ∧ c ≠ 'e' ∧ c ≠ 'E'

theorem scanDigits_append {digits rest : List Char} (h : Digits digits)
    (hrest : BeginsWithout Char.isDigit rest) :
    scanDigits (digits ++ rest) = .ok (digits, rest) := by
  rw [scanDigits, Binary64.spanDigits, span_append h.digits hrest]
  cases digits with
  | nil => exact absurd rfl h.nonempty
  | cons c cs => rfl

theorem scanWhole_append {digits rest : List Char} (h : WholeDigits digits)
    (hrest : BeginsWithout Char.isDigit rest) :
    scanWhole (digits ++ rest) = .ok (digits, rest) := by
  simp only [scanWhole, scanDigits_append h.toDigits hrest, bind, Except.bind]
  split
  · exact absurd rfl (h.needed _ _)
  · rfl

theorem SpellsExponent.scan {exponent : Option (Bool × List Char)} {part rest : List Char}
    (h : SpellsExponent exponent part) (hrest : EndsNumber rest) :
    scanExponent (part ++ rest) = .ok (exponent, rest) := by
  cases h with
  | none =>
      cases rest with
      | nil => rfl
      | cons c cs =>
          obtain ⟨_, _, he, hE⟩ := hrest c rfl
          simp [scanExponent, he, hE, pure, Except.pure]
  | @some mark negative sign digits hmark hsign hdigits =>
      have hscan : scanDigits (digits ++ rest) = .ok (digits, rest) :=
        scanDigits_append hdigits fun c hc => (hrest c hc).1
      cases hsign with
      | minus => simp [scanExponent, hmark, hscan, bind, Except.bind, pure, Except.pure]
      | plus => simp [scanExponent, hmark, hscan, bind, Except.bind, pure, Except.pure]
      | unsigned =>
          -- A digit is no sign.
          obtain ⟨c, cs, rfl⟩ := List.exists_cons_of_ne_nil hdigits.nonempty
          have hdigit := hdigits.digits c (List.mem_cons_self ..)
          have hminus : c ≠ '-' := by
            rintro rfl
            simp at hdigit
          have hplus : c ≠ '+' := by
            rintro rfl
            simp at hdigit
          simp only [List.nil_append, List.cons_append] at hscan ⊢
          simp [scanExponent, hmark, hminus, hplus, hscan, bind, Except.bind, pure, Except.pure]

theorem SpellsExponent.head_ne {exponent : Option (Bool × List Char)} {part rest : List Char}
    (h : SpellsExponent exponent part) (hrest : EndsNumber rest) :
    ∀ c ∈ (part ++ rest).head?, c.isDigit = false ∧ c ≠ '.' := by
  cases h with
  | none => exact fun c hc => ⟨(hrest c hc).1, (hrest c hc).2.1⟩
  | some hmark =>
      rintro c ⟨rfl⟩
      rcases hmark with rfl | rfl <;> decide

theorem SpellsFraction.scan {fraction : Option (List Char)} {part rest : List Char}
    (h : SpellsFraction fraction part)
    (hrest : ∀ c ∈ rest.head?, c.isDigit = false ∧ c ≠ '.') :
    scanFraction (part ++ rest) = .ok (fraction, rest) := by
  cases h with
  | none =>
      cases rest with
      | nil => rfl
      | cons c cs =>
          have hpoint := (hrest c rfl).2
          simp [scanFraction, hpoint, pure, Except.pure]
  | some hdigits =>
      rw [List.cons_append, scanFraction, scanDigits_append hdigits fun c hc => (hrest c hc).1]
      rfl

theorem SpellsFraction.head_ne {fraction : Option (List Char)} {part rest : List Char}
    (h : SpellsFraction fraction part) (hrest : BeginsWithout Char.isDigit rest) :
    BeginsWithout Char.isDigit (part ++ rest) := by
  cases h with
  | none => exact hrest
  | some =>
      rintro c ⟨rfl⟩
      rfl

theorem SpellsUnsigned.scan {negative : Bool} {n : NumberText} {cs rest : List Char}
    (h : SpellsUnsigned negative n cs) (hrest : EndsNumber rest) :
    scanUnsigned negative (cs ++ rest) = .ok (n, rest) := by
  cases h with
  | mk hwhole hfraction hexponent =>
      have hafter := hexponent.head_ne hrest
      have hbehind := hfraction.head_ne fun c hc => (hafter c hc).1
      simp only [List.append_assoc] at hbehind ⊢
      simp only [scanUnsigned, scanWhole_append hwhole hbehind, hfraction.scan hafter,
        hexponent.scan hrest, bind, Except.bind]
      rfl

theorem SpellsUnsigned.exists_digit {negative : Bool} {n : NumberText} {cs : List Char}
    (h : SpellsUnsigned negative n cs) :
    ∃ c rest, cs = c :: rest ∧ c.isDigit = true := by
  cases h with
  | @mk whole _ _ _ _ hwhole _ _ =>
      cases whole with
      | nil => exact absurd rfl hwhole.nonempty
      | cons c rest => exact ⟨c, _, rfl, hwhole.digits c (List.mem_cons_self ..)⟩

theorem SpellsNumber.scan {n : NumberText} {cs rest : List Char} (h : SpellsNumber n cs)
    (hrest : EndsNumber rest) : scanNumber (cs ++ rest) = .ok (n, rest) := by
  cases h with
  | negative h => exact h.scan hrest
  | natural h =>
      obtain ⟨c, more, rfl, hdigit⟩ := h.exists_digit
      have hminus : c ≠ '-' := by rintro rfl; simp at hdigit
      rw [← h.scan hrest]
      simp [scanNumber, hminus]

theorem SpellsNumber.read {n : NumberText} {cs rest : List Char} (h : SpellsNumber n cs)
    (hrest : EndsNumber rest) : readNumber (cs ++ rest) = (n.tree, some rest) := by
  simp only [readNumber, h.scan hrest, NumberText.tree]
  cases n.datum? with
  | none => rfl
  | some d => rfl

theorem SpellsNumber.exists_start {n : NumberText} {cs : List Char} (h : SpellsNumber n cs) :
    ∃ c rest, cs = c :: rest ∧ (c = '-' ∨ c.isDigit = true) := by
  cases h with
  | negative h => exact ⟨_, _, rfl, .inl rfl⟩
  | natural h =>
      obtain ⟨c, rest, heq, hdigit⟩ := h.exists_digit
      exact ⟨c, rest, heq, .inr hdigit⟩

/-! ## Texts -/

theorem scanCode_append {digits rest : List Char} {code : Nat} (hcount : digits.length = 4)
    (hcode : codeOf? digits = some code) : scanCode (digits ++ rest) = .ok (code, rest) := by
  obtain ⟨a, b, c, d, rfl⟩ : ∃ a b c d, digits = [a, b, c, d] := by
    match digits, hcount with
    | [a, b, c, d], _ => exact ⟨a, b, c, d, rfl⟩
  have hsize : 4 ≤ a.utf8Size + b.utf8Size + c.utf8Size + d.utf8Size := by
    have := a.utf8Size_pos
    have := b.utf8Size_pos
    have := c.utf8Size_pos
    have := d.utf8Size_pos
    omega
  simp [scanCode, hcode, hsize]

theorem isHalf_of_first {code : Nat} (h : 0xd800 ≤ code ∧ code < 0xdc00) : isHalf code = true := by
  simp only [isHalf, Bool.and_eq_true, decide_eq_true_eq]
  omega

theorem SpellsText.scan {s cs : List Char} (h : SpellsText s cs) {bound rest : List Char}
    (hbound : cs.length < bound.length) :
    scanText bound (cs ++ '\x22' :: rest) = .ok (s, rest) := by
  induction h generalizing bound with
  | nil =>
      cases bound with
      | nil => cases hbound
      | cons b bound => rfl
  | plain hquote hescape hcontrol h ih =>
      cases bound with
      | nil => cases hbound
      | cons b bound =>
          have hrest : scanText bound (_ ++ '\x22' :: rest) = .ok (_, rest) :=
            ih (by simpa using hbound)
          simp [scanText, hrest, Nat.not_lt.mpr hcontrol, bind, Except.bind, pure, Except.pure]
  | @escaped letter c s cs hletter h ih =>
      cases bound with
      | nil => cases hbound
      | cons b bound =>
          have hrest : scanText bound (_ ++ '\x22' :: rest) = .ok (_, rest) :=
            ih (by simp at hbound; omega)
          have hu : letter ≠ 'u' := by rintro rfl; cases hletter
          simp [scanText, scanEscape, hletter, hrest, bind, Except.bind, pure, Except.pure]
  | code hcount hcode hwhole h ih =>
      cases bound with
      | nil => cases hbound
      | cons b bound =>
          have hrest : scanText bound (_ ++ '\x22' :: rest) = .ok (_, rest) :=
            ih (by simp at hbound; omega)
          simp [scanText, scanEscape, scanEscapedCode, scanCode_append hcount hcode, hwhole, hrest,
            bind, Except.bind, pure, Except.pure]
  | halves hcountFirst hfirst hfirstHalf hcountSecond hsecond hsecondHalf h ih =>
      cases bound with
      | nil => cases hbound
      | cons b bound =>
          have hrest : scanText bound (_ ++ '\x22' :: rest) = .ok (_, rest) :=
            ih (by simp at hbound; omega)
          have hhalf := isHalf_of_first hfirstHalf
          simp [scanText, scanEscape, scanEscapedCode, scanCode_append hcountFirst hfirst, hhalf,
            hfirstHalf.2, scanSecondHalf, scanCode_append hcountSecond hsecond, hsecondHalf, hrest,
            bind, Except.bind, pure, Except.pure]

theorem SpellsText.read {s : String} {cs : List Char} (h : SpellsText s.toList cs)
    (rest : List Char) : readText (cs ++ '\x22' :: rest) = (.text s, some rest) := by
  have hscan : scanText (cs ++ '\x22' :: rest) (cs ++ '\x22' :: rest) = .ok (s.toList, rest) :=
    h.scan (by simp)
  simp [readText, hscan]

end PluginHost.Json
