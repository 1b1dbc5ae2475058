import PluginHost.Proofs.Text.Pieces
import PluginHost.Toml.Text

/-! # Texts in TOML documents

Whatever style is chosen for a text, the text is read back as it was, if no quote follows it. On
several lines quotes stand as they are, at most two in a row; where the text ends with quotes, the
closing ones follow directly, and the reader tells them apart by their number. -/

namespace PluginHost.Toml

open Text

/-- What follows a text does not begin with a quote of either kind. -/
def EndsText (rest : List Char) : Prop :=
  ∀ c ∈ rest.head?, c ≠ '\x22' ∧ c ≠ '\x27'

theorem EndsText.without {rest : List Char} (h : EndsText rest) {quote : Char}
    (hquote : quote = '\x22' ∨ quote = '\x27') : BeginsWithout (· == quote) rest := by
  intro c hc
  rcases hquote with rfl | rfl
  · simpa using (h c hc).1
  · simpa using (h c hc).2

theorem EndsText.ne_cons {rest : List Char} (h : EndsText rest) {quote : Char}
    (hquote : quote = '\x22' ∨ quote = '\x27') (tail : List Char) : rest ≠ quote :: tail := by
  rintro rfl
  simpa using h.without hquote quote rfl

/-! ## Escapes -/

/-- What stands for a character after a backslash, whatever follows. -/
structure Escapes (code : List Char) (c : Char) : Prop where
  scan (tail : List Char) : scanEscape (code ++ tail) = some (c, tail)
  unfolded (tail : List Char) : afterFold? (code ++ tail) = none

/-- A character that stands for itself between double quotes. -/
structure Bare (c : Char) : Prop where
  not_quote : c ≠ '\x22'
  not_escape : c ≠ '\\'
  not_control : isControl c = false

theorem escapes_letter {letter c : Char} (h : ∀ tail, scanEscape (letter :: tail) = some (c, tail))
    (hplain : letter ∉ [' ', '\t', '\n', '\r']) : Escapes [letter] c := by
  simp only [List.mem_cons, List.not_mem_nil, or_false, not_or] at hplain
  obtain ⟨hspace, htab, hline, hreturn⟩ := hplain
  exact ⟨h, fun tail => by simp [afterFold?, hspace, htab, afterNewline?, hline, hreturn]⟩

theorem mapM_codeDigits {n : Nat} (h : n < 0x80) :
    (codeDigits n).mapM (Number.digitIn? 16) = some [0, 0, n / 16, n % 16] := by
  have hall : ∀ n < 0x80, (codeDigits n).mapM (Number.digitIn? 16) =
      some [0, 0, n / 16, n % 16] := by
    decide
  exact hall n h

theorem length_codeDigits {n : Nat} (h : n < 0x80) : (codeDigits n).length = 4 := by
  have hall : ∀ n < 0x80, (codeDigits n).length = 4 := by
    decide
  exact hall n h

theorem scanCode_codeDigits {n : Nat} (h : n < 0x80) (tail : List Char) :
    scanCode 4 (codeDigits n ++ tail) = some (Char.ofNat n, tail) := by
  have hlength := length_codeDigits h
  have hvalue : n / 16 * 16 + n % 16 = n := by omega
  have hvalid : n.isValidChar := .inl (by omega)
  simp [scanCode, hlength, mapM_codeDigits h, hvalue, hvalid]

theorem escapes_code {c : Char} (h : isControl c = true) :
    Escapes ('u' :: codeDigits c.toNat) c := by
  have hsmall : c.toNat < 0x80 := by
    simp only [isControl, Bool.or_eq_true, Bool.and_eq_true, decide_eq_true_eq, beq_iff_eq] at h
    rcases h with ⟨hlow, _⟩ | rfl
    · omega
    · decide
  refine ⟨fun tail => ?_, fun tail => rfl⟩
  show scanCode 4 (codeDigits c.toNat ++ tail) = _
  rw [scanCode_codeDigits hsmall, Char.ofNat_toNat]

/-- How a character is written between double quotes, after so many quotes. -/
def writeChar (lines : Bool) (run : Nat) (c : Char) : List Char :=
  if c = '\x22' then
    if lines && run + 1 ≤ 2 then ['\x22'] else ['\\', '\x22']
  else if c = '\\' then ['\\', '\\']
  else if c = '\x08' then ['\\', 'b']
  else if c = '\t' then ['\\', 't']
  else if c = '\n' then if lines then ['\n'] else ['\\', 'n']
  else if c = '\x0c' then ['\\', 'f']
  else if c = '\r' then ['\\', 'r']
  else if isControl c then ['\\', 'u'] ++ codeDigits c.toNat
  else [c]

/-- The quotes that stand directly before what comes after a character. -/
def runAfter (run : Nat) (c : Char) : Nat :=
  if c = '\x22' ∧ run + 1 ≤ 2 then run + 1 else 0

theorem writeEscaped_cons (lines : Bool) (run : Nat) (c : Char) (cs : List Char) :
    writeEscaped lines run (c :: cs) =
      writeChar lines run c ++ writeEscaped lines (runAfter run c) cs := by
  simp only [writeEscaped, writeChar, runAfter]
  by_cases hquote : c = '\x22'
  · simp [hquote]
  · simp [hquote]

/-- A character is escaped, or it stands for itself; on several lines so do the end of a line and
the first two quotes in a row. -/
theorem writeChar_cases (lines : Bool) (run : Nat) (c : Char) :
    (∃ code, writeChar lines run c = '\\' :: code ∧ Escapes code c) ∨
      writeChar lines run c = [c] ∧
        (Bare c ∨ lines = true ∧ (c = '\n' ∨ c = '\x22' ∧ run + 1 ≤ 2)) := by
  by_cases hquote : c = '\x22'
  · subst hquote
    by_cases hfew : lines && run + 1 ≤ 2
    · refine .inr ⟨by simp only [writeChar, hfew, if_true], .inr ?_⟩
      simpa using hfew
    · exact .inl ⟨_, by simp only [writeChar, hfew]; rfl, escapes_letter (fun _ => rfl) (by decide)⟩
  by_cases hescape : c = '\\'
  · subst hescape
    exact .inl ⟨_, rfl, escapes_letter (fun _ => rfl) (by decide)⟩
  by_cases hback : c = '\x08'
  · subst hback
    exact .inl ⟨_, rfl, escapes_letter (fun _ => rfl) (by decide)⟩
  by_cases htab : c = '\t'
  · subst htab
    exact .inl ⟨_, rfl, escapes_letter (fun _ => rfl) (by decide)⟩
  by_cases hline : c = '\n'
  · subst hline
    cases lines with
    | true => exact .inr ⟨rfl, .inr ⟨rfl, .inl rfl⟩⟩
    | false => exact .inl ⟨_, rfl, escapes_letter (fun _ => rfl) (by decide)⟩
  by_cases hfeed : c = '\x0c'
  · subst hfeed
    exact .inl ⟨_, rfl, escapes_letter (fun _ => rfl) (by decide)⟩
  by_cases hreturn : c = '\r'
  · subst hreturn
    exact .inl ⟨_, rfl, escapes_letter (fun _ => rfl) (by decide)⟩
  by_cases hcontrol : isControl c = true
  · refine .inl ⟨'u' :: codeDigits c.toNat, ?_, escapes_code hcontrol⟩
    simp [writeChar, hquote, hescape, hback, htab, hline, hfeed, hreturn, hcontrol]
  · refine .inr ⟨?_, .inl ⟨hquote, hescape, by simpa using hcontrol⟩⟩
    simp [writeChar, hquote, hescape, hback, htab, hline, hfeed, hreturn, hcontrol]

/-! ## On one line -/

theorem scanBasic_escape {code : List Char} {c : Char} (h : Escapes code c) (n : Nat)
    (tail : List Char) :
    scanBasic (n + 1) ('\\' :: (code ++ tail)) =
      (scanBasic n tail).map fun (more, after) => (c :: more, after) := by
  rw [scanBasic, h.scan]
  cases hrest : scanBasic n tail with
  | none => simp [hrest]
  | some found => simp [hrest]

theorem scanBasic_bare {c : Char} (h : Bare c) (n : Nat) (tail : List Char) :
    scanBasic (n + 1) (c :: tail) =
      (scanBasic n tail).map fun (more, after) => (c :: more, after) := by
  have hquote := h.not_quote
  have hescape := h.not_escape
  rw [scanBasic, if_neg (by simp [h.not_control])]
  · cases scanBasic n tail with
    | none => simp
    | some found => simp
  · exact fun heq => hquote heq
  · exact fun heq => hescape heq

theorem scanBasic_writeEscaped (cs : List Char) (run : Nat) {n : Nat} (h : cs.length < n)
    (rest : List Char) :
    scanBasic n (writeEscaped false run cs ++ '\x22' :: rest) = some (cs, rest) := by
  induction cs generalizing n run with
  | nil =>
      obtain ⟨n, rfl⟩ : ∃ m, n = m + 1 := ⟨n - 1, by omega⟩
      simp [writeEscaped, scanBasic]
  | cons c cs ih =>
      obtain ⟨n, rfl⟩ : ∃ m, n = m + 1 := ⟨n - 1, by omega⟩
      have hrest := ih (runAfter run c) (n := n) (by simpa using h)
      rw [writeEscaped_cons, List.append_assoc]
      rcases writeChar_cases false run c with ⟨code, hcode, hescapes⟩ | ⟨hself, hbare | ⟨⟨⟩, _⟩⟩
      · rw [hcode, List.cons_append, scanBasic_escape hescapes, hrest]
        rfl
      · rw [hself, List.singleton_append, scanBasic_bare hbare, hrest]
        rfl

theorem length_le_writeEscaped (lines : Bool) (run : Nat) (cs : List Char) :
    cs.length ≤ (writeEscaped lines run cs).length := by
  induction cs generalizing run with
  | nil => exact Nat.zero_le _
  | cons c cs ih =>
      have hrest := ih (runAfter run c)
      rw [writeEscaped_cons, List.length_append, List.length_cons]
      rcases writeChar_cases lines run c with ⟨code, hcode, _⟩ | ⟨hself, _⟩
      · rw [hcode, List.length_cons]
        omega
      · rw [hself, List.length_singleton]
        omega

theorem scanLiteral_append {cs : List Char} (h : ∀ c ∈ cs, c ≠ '\x27' ∧ isControl c = false)
    (rest : List Char) : scanLiteral (cs ++ '\x27' :: rest) = some (cs, rest) := by
  induction cs with
  | nil => rfl
  | cons c cs ih =>
      obtain ⟨hquote, hcontrol⟩ := h c (List.mem_cons_self ..)
      simp [scanLiteral, hcontrol, ih fun x hx => h x (List.mem_cons_of_mem _ hx)]

/-! ## On several lines -/

/-- How a text is spelled between three quotes of a kind, and how many quotes stand at its start:
as they are, but at most two in a row. -/
inductive SpellsLines (quote : Char) : Nat → List Char → List Char → Prop where
  | nil : SpellsLines quote 0 [] []
  | quote {k s cs} (hfew : k < 2) (h : SpellsLines quote k s cs) :
      SpellsLines quote (k + 1) (quote :: s) (quote :: cs)
  | plain {k c s cs} (hquote : c ≠ quote) (hescape : ¬(c = '\\' ∧ quote = '\x22'))
      (hcontrol : c = '\n' ∨ isControl c = false) (h : SpellsLines quote k s cs) :
      SpellsLines quote 0 (c :: s) (c :: cs)
  | escaped {k code c s cs} (hquote : quote = '\x22') (hcode : Escapes code c)
      (h : SpellsLines quote k s cs) : SpellsLines quote 0 (c :: s) ('\\' :: (code ++ cs))

/-- After the quotes at its start a text ends or goes on with something else. -/
theorem SpellsLines.start {quote : Char} {k : Nat} {s cs : List Char}
    (h : SpellsLines quote k s cs) :
    s = List.replicate k quote ∧ cs = List.replicate k quote ∨
      ∃ c tail, cs = List.replicate k quote ++ c :: tail ∧ c ≠ quote := by
  induction h with
  | nil => exact .inl ⟨rfl, rfl⟩
  | quote _ _ ih =>
      rcases ih with ⟨rfl, rfl⟩ | ⟨c, tail, rfl, hc⟩
      · exact .inl ⟨rfl, rfl⟩
      · exact .inr ⟨c, tail, rfl, hc⟩
  | plain hquote _ _ _ _ => exact .inr ⟨_, _, rfl, hquote⟩
  | escaped hquote _ _ _ => exact .inr ⟨_, _, rfl, by rw [hquote]; decide⟩

theorem closing?_replicate {quote : Char} {k : Nat} {tail : List Char} (hk : k ≤ 5)
    (h : BeginsWithout (· == quote) tail) :
    closing? quote (List.replicate k quote ++ tail) =
      if 3 ≤ k then some (List.replicate (k - 3) quote, tail) else none := by
  have hrun : (List.replicate k quote ++ tail).takeWhile (· == quote) = List.replicate k quote :=
    takeWhile_append (fun c hc => by simp [List.eq_of_mem_replicate hc]) h
  have hcount : min 5 k = k := by omega
  simp [closing?, hrun, hcount]

/-- What is read of a text that goes on after a character. -/
def keep (c : Char) (found : Option (List Char × List Char)) : Option (List Char × List Char) :=
  found.map fun (more, after) => (c :: more, after)

theorem scanLines_quote (quote : Char) (n : Nat) (tail : List Char) :
    scanLines quote (n + 1) (quote :: tail) =
      match closing? quote (quote :: tail) with
      | some found => some found
      | none => keep quote (scanLines quote n tail) := by
  rw [scanLines, if_pos rfl]
  cases closing? quote (quote :: tail) with
  | some found => rfl
  | none => cases hrest : scanLines quote n tail <;> simp [keep, hrest]

theorem scanLines_plain {quote c : Char} (hquote : c ≠ quote)
    (hescape : ¬(c = '\\' ∧ quote = '\x22')) (hcontrol : c = '\n' ∨ isControl c = false)
    (n : Nat) (tail : List Char) :
    scanLines quote (n + 1) (c :: tail) = keep c (scanLines quote n tail) := by
  have hkeep : (do
      let (more, after) ← scanLines quote n tail
      return (c :: more, after)) = keep c (scanLines quote n tail) := by
    cases scanLines quote n tail <;> rfl
  rw [scanLines, if_neg hquote, if_neg hescape]
  rcases hcontrol with rfl | hcontrol
  · rw [if_pos rfl]
    exact hkeep
  · simp only [hcontrol, hkeep]
    simp

theorem scanLines_escape {code : List Char} {c : Char} (h : Escapes code c) (n : Nat)
    (tail : List Char) :
    scanLines '\x22' (n + 1) ('\\' :: (code ++ tail)) = keep c (scanLines '\x22' n tail) := by
  rw [scanLines, if_neg (by decide), if_pos (by decide), h.unfolded, h.scan]
  cases hrest : scanLines '\x22' n tail <;> simp [keep, hrest]

/-- A text on several lines is read up to the quotes that close it. -/
theorem SpellsLines.read {quote : Char} {k : Nat} {s cs : List Char} (h : SpellsLines quote k s cs)
    {rest : List Char} (hrest : BeginsWithout (· == quote) rest) {n : Nat} (hn : s.length < n) :
    scanLines quote n (cs ++ (List.replicate 3 quote ++ rest)) = some (s, rest) := by
  induction h generalizing n with
  | nil =>
      obtain ⟨n, rfl⟩ : ∃ m, n = m + 1 := ⟨n - 1, by omega⟩
      have hclosed := closing?_replicate (k := 3) (by omega) hrest
      rw [List.nil_append, List.replicate_succ, List.cons_append, scanLines_quote]
      rw [List.replicate_succ, List.cons_append] at hclosed
      rw [hclosed]
      rfl
  | @quote k s cs hfew h ih =>
      obtain ⟨n, rfl⟩ : ∃ m, n = m + 1 := ⟨n - 1, by omega⟩
      rw [List.cons_append, scanLines_quote]
      -- The quotes at the end of the text run into those that close it; no others close it.
      rcases h.start with ⟨rfl, rfl⟩ | ⟨c, tail, rfl, hc⟩
      · have hjoined : quote :: (List.replicate k quote ++ (List.replicate 3 quote ++ rest)) =
            List.replicate (k + 1 + 3) quote ++ rest := by
          rw [← List.append_assoc, List.replicate_append_replicate, ← List.cons_append,
            ← List.replicate_succ, Nat.add_right_comm k 1 3]
        rw [hjoined, closing?_replicate (by omega) hrest, if_pos (by omega)]
        rfl
      · have hjoined : quote :: (List.replicate k quote ++ c :: tail ++
            (List.replicate 3 quote ++ rest)) =
              List.replicate (k + 1) quote ++
                (c :: (tail ++ (List.replicate 3 quote ++ rest))) := by
          simp [List.replicate_succ]
        have hopen : BeginsWithout (· == quote)
            (c :: (tail ++ (List.replicate 3 quote ++ rest))) := by
          rintro _ ⟨⟩
          simpa using hc
        rw [hjoined, closing?_replicate (by omega) hopen, if_neg (by omega),
          ih (by simpa using hn)]
        rfl
  | plain hquote hescape hcontrol _ ih =>
      obtain ⟨n, rfl⟩ : ∃ m, n = m + 1 := ⟨n - 1, by omega⟩
      rw [List.cons_append, scanLines_plain hquote hescape hcontrol, ih (by simpa using hn)]
      rfl
  | escaped hquote hcode _ ih =>
      obtain ⟨n, rfl⟩ : ∃ m, n = m + 1 := ⟨n - 1, by omega⟩
      subst hquote
      rw [List.cons_append, List.append_assoc, scanLines_escape hcode, ih (by simpa using hn)]
      rfl

/-- Escapes are written between double quotes such that the text is spelled. -/
theorem exists_spellsLines_writeEscaped (cs : List Char) {run : Nat} (hrun : run ≤ 2) :
    ∃ k, k + run ≤ 2 ∧ SpellsLines '\x22' k cs (writeEscaped true run cs) := by
  induction cs generalizing run with
  | nil => exact ⟨0, by omega, .nil⟩
  | cons c cs ih =>
      rw [writeEscaped_cons]
      have hafter : runAfter run c ≤ 2 := by
        unfold runAfter
        split <;> omega
      obtain ⟨k, hk, hspelled⟩ := ih hafter
      rcases writeChar_cases true run c with ⟨code, hcode, hescapes⟩ | ⟨hself, hplain⟩
      · rw [hcode]
        exact ⟨0, by omega, .escaped rfl hescapes hspelled⟩
      · rw [hself]
        rcases hplain with hbare | ⟨_, rfl | ⟨rfl, hfew⟩⟩
        · exact ⟨0, by omega, .plain hbare.not_quote (fun h => hbare.not_escape h.1)
            (.inr hbare.not_control) hspelled⟩
        · exact ⟨0, by omega, .plain (by decide) (by decide) (.inl rfl) hspelled⟩
        · rw [runAfter, if_pos ⟨rfl, hfew⟩] at hk
          exact ⟨k + 1, by omega, .quote (by omega) hspelled⟩

/-- A text without control characters and with two quotes in a row at most spells itself. -/
theorem exists_spellsLines_self {cs : List Char} {run : Nat} (hrun : run ≤ 2)
    (hcoded : ∀ c ∈ cs, needsCode c = false) (h : longestRun '\x27' run cs ≤ 2) :
    ∃ k, k + run ≤ 2 ∧ SpellsLines '\x27' k cs cs := by
  induction cs generalizing run with
  | nil => exact ⟨0, by omega, .nil⟩
  | cons c cs ih =>
      have hrest : ∀ x ∈ cs, needsCode x = false := fun x hx => hcoded x (List.mem_cons_of_mem _ hx)
      rw [longestRun] at h
      split at h
      next hquote =>
        subst hquote
        obtain ⟨k, hk, hspelled⟩ := ih (show run + 1 ≤ 2 by omega) hrest (by omega)
        exact ⟨k + 1, by omega, .quote (by omega) hspelled⟩
      next hquote =>
        obtain ⟨k, _, hspelled⟩ := ih (Nat.zero_le 2) hrest h
        have hcontrol : c = '\n' ∨ isControl c = false := by
          have := hcoded c (List.mem_cons_self ..)
          simp only [needsCode, Bool.and_eq_false_iff, bne_eq_false_iff_eq] at this
          exact this.symm
        exact ⟨0, by omega, .plain hquote (fun h => absurd h.2 (by decide)) hcontrol hspelled⟩

/-! ## Any style -/

theorem longestRun_eq_zero {c : Char} {cs : List Char} (h : longestRun c 0 cs = 0) : c ∉ cs := by
  induction cs with
  | nil => exact List.not_mem_nil
  | cons x cs ih =>
      rw [longestRun] at h
      split at h
      next => omega
      next hne => exact List.not_mem_cons_of_ne_of_not_mem (Ne.symm hne) (ih h)

/-- A text that is written as it is on one line holds no apostrophe and no control character. -/
theorem of_styleFor_eq_literal {cs : List Char} (h : styleFor cs = .literal) :
    ∀ c ∈ cs, c ≠ '\x27' ∧ isControl c = false := by
  simp only [styleFor] at h
  split at h
  next => cases h
  next =>
    split at h
    next hplain =>
      simp only [Bool.and_eq_true, Bool.not_eq_true', List.any_eq_false, decide_eq_true_eq,
        List.contains_eq_mem, decide_eq_false_iff_not] at hplain
      obtain ⟨⟨hcoded, hquotes⟩, hlines⟩ := hplain
      have habsent := longestRun_eq_zero hquotes
      intro c hc
      refine ⟨fun heq => habsent (heq ▸ hc), ?_⟩
      have hcode := hcoded c hc
      simp only [needsCode, Bool.and_eq_true, not_and, Bool.not_eq_true, bne_eq_false_iff_eq]
        at hcode
      by_contra hcontrol
      exact hlines (hcode (by simpa using hcontrol) ▸ hc)
    next =>
      split at h
      next => cases h
      next =>
        split at h
        next => cases h
        next => split at h <;> cases h

/-- A text that is written as it is on several lines. -/
theorem of_styleFor_eq_literalLines {cs : List Char} (h : styleFor cs = .literalLines) :
    (∀ c ∈ cs, needsCode c = false) ∧ longestRun '\x27' 0 cs ≤ 2 := by
  simp only [styleFor] at h
  split at h
  next => cases h
  next =>
    split at h
    next => cases h
    next =>
      split at h
      next => cases h
      next =>
        split at h
        next hplain =>
          simpa using hplain
        next => split at h <;> cases h

theorem SpellsLines.length_le {quote : Char} {k : Nat} {s cs : List Char}
    (h : SpellsLines quote k s cs) : s.length ≤ cs.length := by
  induction h with
  | nil => exact Nat.le_refl _
  | quote _ _ ih => simpa using ih
  | plain _ _ _ _ ih => simpa using ih
  | escaped _ _ _ ih =>
      simp only [List.length_cons, List.length_append]
      omega

/-- Only a text that holds the end of a line begins with one. -/
theorem SpellsLines.afterNewline? {quote : Char} {k : Nat} {s cs : List Char}
    (h : SpellsLines quote k s cs) (hquote : quote = '\x22' ∨ quote = '\x27') (hline : '\n' ∉ s)
    (tail : List Char) : afterNewline? (cs ++ quote :: tail) = none := by
  have hstart {c : Char} (hline : c ≠ '\n') (hreturn : c ≠ '\r') (rest : List Char) :
      Toml.afterNewline? (c :: rest) = none := by
    simp [Toml.afterNewline?, hline, hreturn]
  cases h with
  | nil => rcases hquote with rfl | rfl <;> rfl
  | quote => rcases hquote with rfl | rfl <;> rfl
  | @plain k c s cs _ _ hcontrol h =>
      rw [List.mem_cons, not_or] at hline
      refine hstart (Ne.symm hline.1) ?_ _
      rintro rfl
      rcases hcontrol with hcontrol | hcontrol <;> cases hcontrol
  | escaped => rfl

/-- How a text on several lines begins: on a line of its own if it holds the end of a line. -/
def opening (cs : List Char) : List Char :=
  if cs.contains '\n' then ['\n'] else []

theorem SpellsLines.scanFramed {quote : Char} {k : Nat} {s cs : List Char}
    (h : SpellsLines quote k s cs) (hquote : quote = '\x22' ∨ quote = '\x27') {rest : List Char}
    (hrest : BeginsWithout (· == quote) rest) :
    scanFramed quote (opening s ++ (cs ++ (List.replicate 3 quote ++ rest))) = some (s, rest) := by
  have hbody : (Toml.afterNewline? (opening s ++ (cs ++ (List.replicate 3 quote ++ rest)))).getD
      (opening s ++ (cs ++ (List.replicate 3 quote ++ rest))) =
        cs ++ (List.replicate 3 quote ++ rest) := by
    unfold opening
    split
    next => rfl
    next hline =>
      have hnone := h.afterNewline? hquote (by simpa using hline)
        (List.replicate 2 quote ++ rest)
      rw [List.nil_append, List.replicate_succ, List.cons_append, hnone, Option.getD_none]
  have hlength := h.length_le
  rw [Toml.scanFramed, hbody]
  refine h.read hrest ?_
  simp only [List.length_append]
  omega

theorem scanText_of_quote {quote : Char} (hquote : quote = '\x22' ∨ quote = '\x27')
    {cs : List Char} (h : ∀ tail, cs ≠ quote :: quote :: tail) :
    scanText (quote :: cs) = scanQuoted (quote :: cs) := by
  rcases hquote with rfl | rfl
  · rw [scanText]
    · exact fun tail heq => h tail (List.cons.inj heq).2
    · exact fun tail heq => absurd (List.cons.inj heq).1 (by decide)
  · rw [scanText]
    · exact fun tail heq => absurd (List.cons.inj heq).1 (by decide)
    · exact fun tail heq => h tail (List.cons.inj heq).2

theorem writeEscaped_ne_quotes (cs : List Char) {rest : List Char} (hrest : EndsText rest)
    (tail : List Char) :
    writeEscaped false 0 cs ++ '\x22' :: rest ≠ '\x22' :: '\x22' :: tail := by
  cases cs with
  | nil =>
      intro heq
      exact hrest.ne_cons (.inl rfl) tail (List.cons.inj heq).2
  | cons c cs =>
      rw [writeEscaped_cons]
      rcases writeChar_cases false 0 c with ⟨code, hcode, _⟩ | ⟨hself, hbare | ⟨⟨⟩, _⟩⟩
      · rw [hcode]
        exact fun heq => absurd (List.cons.inj heq).1 (by decide)
      · rw [hself]
        exact fun heq => hbare.not_quote (List.cons.inj heq).1

theorem literal_ne_quotes {cs : List Char} (h : ∀ c ∈ cs, c ≠ '\x27' ∧ isControl c = false)
    {rest : List Char} (hrest : EndsText rest) (tail : List Char) :
    cs ++ '\x27' :: rest ≠ '\x27' :: '\x27' :: tail := by
  cases cs with
  | nil =>
      intro heq
      exact hrest.ne_cons (.inr rfl) tail (List.cons.inj heq).2
  | cons c cs => exact fun heq => (h c (List.mem_cons_self ..)).1 (List.cons.inj heq).1

/-- A text is read back in whatever style it was written. -/
theorem scanText_writeText (s : String) {rest : List Char} (hrest : EndsText rest) :
    scanText (writeText s ++ rest) = some (s, rest) := by
  rw [writeText]
  cases hstyle : styleFor s.toList with
  | basic =>
      -- A quote of one is no quote of three: what follows it is not two more.
      rw [writeStyled, List.append_assoc, List.cons_append, List.singleton_append,
        scanText_of_quote (.inl rfl) (writeEscaped_ne_quotes s.toList hrest)]
      have hlength := length_le_writeEscaped false 0 s.toList
      rw [scanQuoted, scanBasic_writeEscaped s.toList 0 (by simp; omega)]
      simp
  | literal =>
      have hplain := of_styleFor_eq_literal hstyle
      rw [writeStyled, List.append_assoc, List.cons_append, List.singleton_append,
        scanText_of_quote (.inr rfl) (literal_ne_quotes hplain hrest)]
      rw [scanQuoted, scanLiteral_append hplain]
      simp
  | basicLines =>
      obtain ⟨k, _, hspelled⟩ := exists_spellsLines_writeEscaped s.toList (Nat.zero_le 2)
      have hframed := hspelled.scanFramed (.inl rfl) (hrest.without (.inl rfl))
      have htext : writeStyled .basicLines s.toList ++ rest = '\x22' :: '\x22' :: '\x22' ::
          (opening s.toList ++ (writeEscaped true 0 s.toList ++
            (List.replicate 3 '\x22' ++ rest))) := by
        simp [writeStyled, opening, List.replicate]
      rw [htext, scanText, hframed]
      simp
  | literalLines =>
      obtain ⟨hcoded, hfew⟩ := of_styleFor_eq_literalLines hstyle
      obtain ⟨k, _, hspelled⟩ := exists_spellsLines_self (Nat.zero_le 2) hcoded hfew
      have hframed := hspelled.scanFramed (.inr rfl) (hrest.without (.inr rfl))
      have htext : writeStyled .literalLines s.toList ++ rest = '\x27' :: '\x27' :: '\x27' ::
          (opening s.toList ++ (s.toList ++ (List.replicate 3 '\x27' ++ rest))) := by
        simp [writeStyled, opening, List.replicate]
      rw [htext, scanText, hframed]
      simp

end PluginHost.Toml
