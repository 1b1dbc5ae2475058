import PluginHost.Proofs.Toml.Texts
import PluginHost.Toml.Reader
import PluginHost.Toml.Writer

/-! # Lines that were written

The line of a value under a plain name is read as that name and that value, whatever stands on the
lines after it; so is the line of a header. -/

namespace PluginHost.Toml

open Text

/-! ## Names and values -/

/-- A name that needs no quotes. -/
structure PlainName (name : String) : Prop where
  nonempty : name.toList ≠ []
  chars : ∀ c ∈ name.toList, isNameChar c = true

instance (name : String) : Decidable (PlainName name) :=
  decidable_of_iff (name.toList ≠ [] ∧ name.toList.all isNameChar = true)
    ⟨fun h => ⟨h.1, List.all_eq_true.mp h.2⟩, fun h => ⟨h.nonempty, List.all_eq_true.mpr h.chars⟩⟩

/-- A value that is written on the line of its name or from there on. -/
inductive Plain : Datum → Prop where
  | text (s) : Plain (.text s)
  | bool (b) : Plain (.bool b)
  | texts (items : List String) : Plain (.list (items.map .text))

theorem PlainName.writeName_eq {name : String} (h : PlainName name) :
    writeName name = name.toList := by
  have hall : name.toList.all (fun c => c.isAlphanum || c == '-' || c == '_') = true :=
    List.all_eq_true.mpr h.chars
  simp [writeName, h.nonempty, hall]

/-- What may follow a value: the end of its line, or what goes on with a list. -/
def EndsValue (rest : List Char) : Prop :=
  ∃ c ∈ ['\n', ',', ']'], rest.head? = some c

theorem EndsValue.endsText {rest : List Char} (h : EndsValue rest) : EndsText rest := by
  have hends : ∀ c ∈ ['\n', ',', ']'], c ≠ '\x22' ∧ c ≠ '\x27' := by
    simp
  obtain ⟨c, hmem, hc⟩ := h
  intro x hx
  cases hc.symm.trans hx
  exact hends c hmem

theorem exists_quote_writeText (s : String) :
    ∃ quote cs, (quote = '\x22' ∨ quote = '\x27') ∧ writeText s = quote :: cs := by
  rw [writeText]
  cases styleFor s.toList with
  | basic => exact ⟨_, _, .inl rfl, rfl⟩
  | literal => exact ⟨_, _, .inr rfl, rfl⟩
  | basicLines => exact ⟨_, _, .inl rfl, rfl⟩
  | literalLines => exact ⟨_, _, .inr rfl, rfl⟩

/-- What is written of a value is read as this value. -/
def Reads (cs : List Char) (d : Datum) : Prop :=
  ∀ n depth rest, cs.length < n → 0 < depth → EndsValue rest →
    scanValue n depth (cs ++ rest) = some (d, rest)

theorem scanValue_text (s : String) {n : Nat} (depth : Nat) {rest : List Char} (hn : 0 < n)
    (hrest : EndsText rest) :
    scanValue n depth (writeText s ++ rest) = some (.text s, rest) := by
  obtain ⟨n, rfl⟩ : ∃ m, n = m + 1 := ⟨n - 1, by omega⟩
  have hread := scanText_writeText s hrest
  obtain ⟨quote, cs, hquote, hwritten⟩ := exists_quote_writeText s
  rw [hwritten, List.cons_append] at hread ⊢
  rcases hquote with rfl | rfl
  · rw [scanValue, hread]
    rfl
  · rw [scanValue, hread]
    rfl

theorem reads_text (s : String) : Reads (writeText s) (.text s) := fun _ depth _ hn _ hrest =>
  scanValue_text s depth (by omega) hrest.endsText

theorem scanBare_append {run rest : List Char} (hrun : ∀ c ∈ run, isBareChar c = true)
    (hrest : EndsValue rest) : scanBare (run ++ rest) = (run, rest) := by
  have hends : ∀ c ∈ ['\n', ',', ']'], isBareChar c = false ∧ c ≠ ' ' := by
    simp [isBareChar]
  obtain ⟨c, hmem, hc⟩ := hrest
  obtain ⟨tail, rfl⟩ : ∃ tail, rest = c :: tail := List.head?_eq_some_iff.mp hc
  have hspan : (run ++ c :: tail).span isBareChar = (run, c :: tail) := by
    refine span_append hrun ?_
    rintro _ ⟨⟩
    exact (hends c hmem).1
  rw [scanBare, hspan]
  simp only
  split
  next heq => exact absurd (List.cons.inj heq).1 (hends c hmem).2
  next => rfl

theorem reads_bool (b : Bool) : Reads (writeValue (.bool b)) (.bool b) := by
  intro n depth rest hn _ hrest
  obtain ⟨n, rfl⟩ : ∃ m, n = m + 1 := ⟨n - 1, by omega⟩
  cases b with
  | true =>
      have hbare : scanBare ('t' :: 'r' :: 'u' :: 'e' :: rest) = (['t', 'r', 'u', 'e'], rest) :=
        @scanBare_append ['t', 'r', 'u', 'e'] rest (List.all_eq_true.mp (by decide)) hrest
      simp [writeValue, scanValue, hbare, readBare, readWord]
  | false =>
      have hbare : scanBare ('f' :: 'a' :: 'l' :: 's' :: 'e' :: rest) =
          (['f', 'a', 'l', 's', 'e'], rest) :=
        @scanBare_append ['f', 'a', 'l', 's', 'e'] rest (List.all_eq_true.mp (by decide)) hrest
      simp [writeValue, scanValue, hbare, readBare, readWord]

theorem skipBlanks_append {blanks : List Char} (h : ∀ c ∈ blanks, c = ' ') {c : Char}
    (hspace : c ≠ ' ') (htab : c ≠ '\t') (cs : List Char) :
    skipBlanks (blanks ++ c :: cs) = c :: cs := by
  refine dropWhile_append (fun c hc => by simp [h c hc]) ?_
  rintro _ ⟨⟩
  simp [hspace, htab]

theorem skipFiller_append {blanks : List Char} (h : ∀ c ∈ blanks, c = ' ') {c : Char}
    (hc : c ∉ [' ', '\t', '#', '\n', '\r']) (n : Nat) (cs : List Char) :
    skipFiller (n + 1) (blanks ++ c :: cs) = some (c :: cs) := by
  simp only [List.mem_cons, List.not_mem_nil, or_false, not_or] at hc
  obtain ⟨hspace, htab, hcomment, hline, hreturn⟩ := hc
  simp [skipFiller, skipBlanks_append h hspace htab, skipComment, hcomment, afterNewline?, hline,
    hreturn]

theorem scanItems_last (s : String) {n : Nat} (depth : Nat) (hn : 0 < n) {blanks : List Char}
    (hblanks : ∀ c ∈ blanks, c = ' ') (rest : List Char) :
    scanItems (n + 1) depth (blanks ++ (writeText s ++ ']' :: rest)) = some ([.text s], rest) := by
  have hends : EndsValue (']' :: rest) := ⟨']', by decide, rfl⟩
  have hread := scanValue_text s depth hn hends.endsText
  have hnext : skipFiller (rest.length + 1 + 1) (']' :: rest) = some (']' :: rest) :=
    skipFiller_append (List.forall_mem_nil _) (by decide) _ _
  obtain ⟨quote, cs, hquote, hwritten⟩ := exists_quote_writeText s
  rw [hwritten, List.cons_append] at hread ⊢
  have hfirst := skipFiller_append hblanks (c := quote)
    (by rcases hquote with rfl | rfl <;> decide)
  rw [scanItems, hfirst]
  rcases hquote with rfl | rfl
  · simp [hread, hnext]
  · simp [hread, hnext]

theorem scanItems_more (s : String) {n : Nat} (depth : Nat) (hn : 0 < n) {blanks : List Char}
    (hblanks : ∀ c ∈ blanks, c = ' ') (rest : List Char) {items : List Datum} {after : List Char}
    (hrest : scanItems n depth rest = some (items, after)) :
    scanItems (n + 1) depth (blanks ++ (writeText s ++ ',' :: rest)) =
      some (.text s :: items, after) := by
  have hends : EndsValue (',' :: rest) := ⟨',', by decide, rfl⟩
  have hread := scanValue_text s depth hn hends.endsText
  have hnext : skipFiller (rest.length + 1 + 1) (',' :: rest) = some (',' :: rest) :=
    skipFiller_append (List.forall_mem_nil _) (by decide) _ _
  obtain ⟨quote, cs, hquote, hwritten⟩ := exists_quote_writeText s
  rw [hwritten, List.cons_append] at hread ⊢
  have hfirst := skipFiller_append hblanks (c := quote)
    (by rcases hquote with rfl | rfl <;> decide)
  rw [scanItems, hfirst]
  rcases hquote with rfl | rfl
  · simp [hread, hnext, hrest]
  · simp [hread, hnext, hrest]

theorem scanItems_texts (first : String) (more : List String) {n : Nat} (depth : Nat)
    {blanks : List Char} (hblanks : ∀ c ∈ blanks, c = ' ') (hn : more.length + 1 < n)
    (rest : List Char) :
    scanItems n depth
        (blanks ++ (writeText first ++ (writeItems (more.map .text) ++ ']' :: rest))) =
      some (.text first :: more.map .text, rest) := by
  induction more generalizing first n blanks with
  | nil =>
      obtain ⟨n, rfl⟩ : ∃ m, n = m + 1 := ⟨n - 1, by omega⟩
      exact scanItems_last first depth (by simp at hn; omega) hblanks rest
  | cons second more ih =>
      obtain ⟨n, rfl⟩ : ∃ m, n = m + 1 := ⟨n - 1, by omega⟩
      have hspace : ∀ c ∈ [' '], c = ' ' := fun c hc => List.mem_singleton.mp hc
      have hrest := ih second hspace (n := n) (by simpa using hn)
      have hwritten : writeItems ((second :: more).map .text) ++ ']' :: rest =
          ',' :: ([' '] ++ (writeText second ++ (writeItems (more.map .text) ++ ']' :: rest))) := by
        simp [writeItems, writeValue]
      rw [hwritten]
      exact scanItems_more first depth (by omega) hblanks _ hrest

theorem length_le_writeItems (items : List String) :
    items.length ≤ (writeItems (items.map .text)).length := by
  induction items with
  | nil => exact Nat.le_refl _
  | cons s rest ih =>
      simp only [List.map_cons, writeItems, List.length_append, List.length_cons]
      omega

theorem reads_texts (items : List String) :
    Reads (writeValue (.list (items.map .text))) (.list (items.map .text)) := by
  intro n depth rest hn hdepth hrest
  obtain ⟨n, rfl⟩ : ∃ m, n = m + 1 := ⟨n - 1, by omega⟩
  obtain ⟨depth, rfl⟩ : ∃ m, depth = m + 1 := ⟨depth - 1, by omega⟩
  cases items with
  | nil =>
      have hend : skipFiller (rest.length + 1 + 1) (']' :: rest) = some (']' :: rest) :=
        skipFiller_append (List.forall_mem_nil _) (by decide) _ _
      obtain ⟨n, rfl⟩ : ∃ m, n = m + 1 := ⟨n - 1, by simp [writeValue] at hn; omega⟩
      simp [writeValue, scanValue, scanItems, hend]
  | cons first more =>
      have hlength := length_le_writeItems more
      have hitems := scanItems_texts first more depth (List.forall_mem_nil _) (n := n) (by
        simp [writeValue] at hn
        omega) rest
      have hwritten : writeValue (.list ((first :: more).map .text)) ++ rest =
          '[' :: ([] ++ (writeText first ++ (writeItems (more.map .text) ++ ']' :: rest))) := by
        simp [writeValue]
      rw [hwritten, scanValue, hitems]
      rfl

theorem Plain.reads {d : Datum} (h : Plain d) : Reads (writeValue d) d := by
  cases h with
  | text s => exact reads_text s
  | bool b => exact reads_bool b
  | texts items => exact reads_texts items

/-! ## Lines -/

theorem PlainName.exists_start {name : String} (h : PlainName name) :
    ∃ c cs, name.toList = c :: cs ∧ isNameChar c = true := by
  obtain ⟨c, cs, hname⟩ := List.exists_cons_of_ne_nil h.nonempty
  exact ⟨c, cs, hname, h.chars c (hname ▸ List.mem_cons_self ..)⟩

theorem ne_of_isNameChar {c x : Char} (h : isNameChar c = true) (hx : isNameChar x = false) :
    c ≠ x := by
  rintro rfl
  rw [hx] at h
  cases h

theorem PlainName.scanName {name : String} (h : PlainName name) {rest : List Char}
    (hrest : BeginsWithout isNameChar rest) :
    scanName (name.toList ++ rest) = some (name, rest) := by
  obtain ⟨c, cs, hname, hc⟩ := h.exists_start
  have hquoted : scanQuoted (name.toList ++ rest) = none := by
    rw [hname]
    have hdouble : c ≠ '\x22' := ne_of_isNameChar hc (by decide)
    have hsingle : c ≠ '\x27' := ne_of_isNameChar hc (by decide)
    simp [scanQuoted, hdouble, hsingle]
  rw [Toml.scanName, hquoted]
  simp only [span_append h.chars hrest]
  simp [h.nonempty]

theorem PlainName.skipBlanks {name : String} (h : PlainName name) (rest : List Char) :
    skipBlanks (name.toList ++ rest) = name.toList ++ rest := by
  obtain ⟨c, cs, hname, hc⟩ := h.exists_start
  rw [hname]
  exact skipBlanks_append (List.forall_mem_nil _) (ne_of_isNameChar hc (by decide))
    (ne_of_isNameChar hc (by decide)) _

/-- A plain name is a path of one part, if no dot follows it. -/
theorem PlainName.scanPath {name : String} (h : PlainName name) {rest : List Char}
    (hrest : BeginsWithout isNameChar rest) {c : Char} {after : List Char}
    (hafter : Toml.skipBlanks rest = c :: after) (hdot : c ≠ '.') :
    scanPath partLimit (name.toList ++ rest) = some ([], name, c :: after) := by
  rw [show partLimit = 79 + 1 from rfl, Toml.scanPath, h.skipBlanks, h.scanName hrest]
  simp only [Option.bind_eq_bind, Option.bind_some, hafter]
  split
  next heq => exact absurd (List.cons.inj heq).1 hdot
  next => rfl

/-- The line of a member that is no record. -/
def pairText (name : String) (d : Datum) : List Char :=
  name.toList ++ ([' ', '=', ' '] ++ writeValue d)

theorem exists_start_writeValue {d : Datum} (h : Plain d) :
    ∃ c cs, writeValue d = c :: cs ∧ c ≠ ' ' ∧ c ≠ '\t' := by
  cases h with
  | text s =>
      obtain ⟨quote, cs, hquote, hwritten⟩ := exists_quote_writeText s
      refine ⟨quote, cs, hwritten, ?_⟩
      rcases hquote with rfl | rfl <;> decide
  | bool b => cases b <;> exact ⟨_, _, rfl, by decide⟩
  | texts items => cases items <;> exact ⟨_, _, rfl, by decide⟩

theorem scanPair_pairText {name : String} (hname : PlainName name) {d : Datum} (hd : Plain d)
    {n : Nat} {rest : List Char} (hrest : EndsValue rest) (hn : (writeValue d).length < n) :
    scanPair false (n + 1) nestingLimit (pairText name d ++ rest) = some (⟨[], name, d⟩, rest) := by
  have hsign : BeginsWithout isNameChar ([' ', '=', ' '] ++ (writeValue d ++ rest)) := by
    rintro _ ⟨⟩
    decide
  have hvalue := hd.reads n nestingLimit rest hn (by decide) hrest
  obtain ⟨c, cs, hwritten, hspace, htab⟩ := exists_start_writeValue hd
  have hstart : Toml.skipBlanks (' ' :: (writeValue d ++ rest)) = writeValue d ++ rest := by
    rw [hwritten]
    exact skipBlanks_append (fun c hc => List.mem_singleton.mp hc) hspace htab _
  have hpath : Toml.scanPath partLimit
      (name.toList ++ ([' ', '=', ' '] ++ (writeValue d ++ rest))) =
      some ([], name, '=' :: ' ' :: (writeValue d ++ rest)) := hname.scanPath hsign rfl (by decide)
  have hmark : Toml.skipBlanks ('=' :: ' ' :: (writeValue d ++ rest)) =
      '=' :: ' ' :: (writeValue d ++ rest) := rfl
  rw [pairText, List.append_assoc, List.append_assoc, scanPair, hpath]
  simp [skipAroundSign, hmark, hstart, hvalue]

theorem scanLine_pair {name : String} (h : PlainName name) {d : Datum} (hd : Plain d)
    (tail : List Char) :
    scanLine (pairText name d ++ '\n' :: tail) = some (.pair ⟨[], name, d⟩, '\n' :: tail) := by
  have hends : EndsValue ('\n' :: tail) := ⟨'\n', by decide, rfl⟩
  have hpair := scanPair_pairText h hd (n := 3 * (pairText name d ++ '\n' :: tail).length + 2) hends
    (by simp [pairText]; omega)
  have hblanks : Toml.skipBlanks (pairText name d ++ '\n' :: tail) =
      pairText name d ++ '\n' :: tail := by
    rw [pairText, List.append_assoc]
    exact h.skipBlanks _
  obtain ⟨c, cs, hname, hc⟩ := h.exists_start
  have hcomment : c ≠ '#' := ne_of_isNameChar hc (by decide)
  have hbracket : c ≠ '[' := ne_of_isNameChar hc (by decide)
  have hline : c ≠ '\n' := ne_of_isNameChar hc (by decide)
  have hreturn : c ≠ '\r' := ne_of_isNameChar hc (by decide)
  obtain ⟨more, hmore⟩ : ∃ more, pairText name d ++ '\n' :: tail = c :: more :=
    ⟨_, by rw [pairText, hname, List.cons_append, List.cons_append]⟩
  rw [hmore] at hpair hblanks ⊢
  have hfilled : ¬((c :: more).head? = some '#' ∨ (afterNewline? (c :: more)).isSome = true) := by
    simp [hcomment, afterNewline?, hline, hreturn]
  simp only [scanLine, hblanks]
  split
  next heq => cases heq
  next heq => exact absurd (List.cons.inj heq).1 hbracket
  next heq => exact absurd (List.cons.inj heq).1 hbracket
  next => rw [if_neg hfilled, hpair, Option.map_some]

theorem scanLine_header {name : String} (h : PlainName name) (tail : List Char) :
    scanLine ('[' :: (name.toList ++ ']' :: '\n' :: tail)) =
      some (.header ⟨[], name, false, []⟩, '\n' :: tail) := by
  have hends : BeginsWithout isNameChar (']' :: '\n' :: tail) := by
    rintro _ ⟨⟩
    decide
  have hpath : Toml.scanPath partLimit (name.toList ++ ']' :: '\n' :: tail) =
      some ([], name, ']' :: '\n' :: tail) := h.scanPath hends rfl (by decide)
  obtain ⟨c, cs, hname, hc⟩ := h.exists_start
  have hbracket : c ≠ '[' := ne_of_isNameChar hc (by decide)
  have hstart : Toml.skipBlanks ('[' :: (name.toList ++ ']' :: '\n' :: tail)) =
      '[' :: (name.toList ++ ']' :: '\n' :: tail) := rfl
  have hheader : scanHeader false (name.toList ++ ']' :: '\n' :: tail) =
      some (⟨[], name, false, []⟩, '\n' :: tail) := by
    rw [scanHeader, hpath]
    rfl
  simp only [scanLine, hstart]
  split
  next heq => cases heq
  next heq =>
    rw [hname] at heq
    exact absurd (List.cons.inj (List.cons.inj heq).2).1 hbracket
  next heq =>
    cases heq
    rw [hheader, Option.map_some]
  next hother => exact absurd rfl (hother _)

theorem scanLine_blank (tail : List Char) :
    scanLine ('\n' :: tail) = some (.blank, '\n' :: tail) := by
  simp [scanLine, Toml.skipBlanks, afterNewline?]

theorem endLine_newline (tail : List Char) : endLine ('\n' :: tail) = some tail := by
  simp [endLine, Toml.skipBlanks, skipComment, afterNewline?]

end PluginHost.Toml
