import PluginHost.Json.Writer
import PluginHost.Proofs.Json.Reading
import PluginHost.Proofs.Number.Digits

/-! # Reading what was written

Whatever is written, on one line or on many, is a text of the grammar. So data without fractions is
read back as it was, and what is decoded from a written text is what the data holds. -/

namespace PluginHost

/-- Data without fractions, whose integers have sixty-four bits at most, with a sign or without. -/
inductive Datum.Exact : Datum → Prop where
  | null : Exact .null
  | bool (b) : Exact (.bool b)
  | integer {n} (hleast : -(twoTo 63 : Int) ≤ n) (hgreatest : n < twoTo 64) : Exact (.integer n)
  | text (s) : Exact (.text s)
  | list {items} (h : ∀ d ∈ items, d.Exact) : Exact (.list items)
  | record {members} (h : ∀ m ∈ members, m.2.Exact) : Exact (.record members)

mutual

/-- The data of a tree that was made of data is that data. -/
theorem Datum.datum?_toTree (d : Datum) : d.toTree.datum? = some d := by
  match d with
  | .list items => rw [Datum.toTree, Tree.datum?, Datum.data?_toTrees items, Option.map_some]
  | .record members =>
      rw [Datum.toTree, Tree.datum?, Datum.memberData?_toMembers members, Option.map_some]
  | .null => rfl
  | .bool _ => rfl
  | .integer _ => rfl
  | .float _ => rfl
  | .text _ => rfl

theorem Datum.data?_toTrees (items : List Datum) :
    Tree.data? (Datum.toTrees items) = some items := by
  match items with
  | [] => rfl
  | d :: rest =>
      simp [Datum.toTrees, Tree.data?, Datum.datum?_toTree d, Datum.data?_toTrees rest]

theorem Datum.memberData?_toMembers (members : List (String × Datum)) :
    Tree.memberData? (Datum.toMembers members) = some members := by
  match members with
  | [] => rfl
  | (_, d) :: rest =>
      simp [Datum.toMembers, Tree.memberData?, Datum.datum?_toTree d,
        Datum.memberData?_toMembers rest]

end

namespace Json

/-! ## Texts -/

theorem escapeOf?_of_controlLetter? {c letter : Char} (h : controlLetter? c = some letter) :
    escapeOf? letter = some c := by
  unfold controlLetter? at h
  split at h
  next hc => cases h; exact hc ▸ rfl
  next =>
    split at h
    next hc => cases h; exact hc ▸ rfl
    next =>
      split at h
      next hc => cases h; exact hc ▸ rfl
      next =>
        split at h
        next hc => cases h; exact hc ▸ rfl
        next =>
          split at h
          next hc => cases h; exact hc ▸ rfl
          next => cases h

/-- Four hexadecimal digits of a control character. -/
def controlDigits (n : Nat) : List Char :=
  List.replicate (4 - (Text.hexDigits n).length) '0' ++ Text.hexDigits n

theorem codeOf?_controlDigits {n : Nat} (h : n < 0x20) :
    (controlDigits n).length = 4 ∧ codeOf? (controlDigits n) = some n := by
  have hall : ∀ n < 0x20, (controlDigits n).length = 4 ∧ codeOf? (controlDigits n) = some n := by
    decide
  exact hall n h

theorem spellsText_writeChar (c : Char) {s cs : List Char} (h : SpellsText s cs) :
    SpellsText (c :: s) (writeChar c ++ cs) := by
  unfold writeChar
  split
  next hquote =>
    subst hquote
    exact .escaped rfl h
  next hquote =>
    split
    next hescape =>
      subst hescape
      exact .escaped rfl h
    next hescape =>
      split
      next hcontrol =>
        cases hletter : controlLetter? c with
        | some letter => exact .escaped (escapeOf?_of_controlLetter? hletter) h
        | none =>
            obtain ⟨hcount, hcode⟩ := codeOf?_controlDigits hcontrol
            have hwhole : isHalf c.toNat = false := by
              simp only [isHalf, Bool.and_eq_false_iff, decide_eq_false_iff_not]
              omega
            have hspelled := SpellsText.code hcount hcode hwhole h
            rw [Char.ofNat_toNat] at hspelled
            simpa [controlDigits] using hspelled
      next hcontrol => exact .plain hquote hescape (by omega) h

theorem spellsText_flatMap_writeChar (s : List Char) : SpellsText s (s.flatMap writeChar) := by
  induction s with
  | nil => exact .nil
  | cons c s ih => exact spellsText_writeChar c ih

/-! ## Numbers -/

theorem wholeDigits_natDigits (n : Nat) : WholeDigits (Number.natDigits n) where
  nonempty := Number.natDigits_ne_nil n
  digits _ h := Number.isDigit_of_mem_natDigits h
  needed c rest := Number.natDigits_ne_zero_cons n c rest

theorem spellsUnsigned_natDigits (negative : Bool) (n : Nat) :
    SpellsUnsigned negative ⟨negative, Number.natDigits n, none, none⟩ (Number.natDigits n) := by
  simpa using @SpellsUnsigned.mk negative _ _ _ _ _ (wholeDigits_natDigits n) .none .none

/-- An integer in decimal notation. -/
def integerText : Int → NumberText
  | .ofNat n => ⟨false, Number.natDigits n, none, none⟩
  | .negSucc n => ⟨true, Number.natDigits (n + 1), none, none⟩

theorem spellsNumber_intDigits (n : Int) : SpellsNumber (integerText n) (Number.intDigits n) := by
  cases n with
  | ofNat n => exact .natural (spellsUnsigned_natDigits false n)
  | negSucc n => exact .negative (spellsUnsigned_natDigits true (n + 1))

theorem integer?_integerText (n : Int) : (integerText n).integer? = some n := by
  cases n with
  | ofNat n => simp [integerText, NumberText.integer?, Number.digitsValue_natDigits]
  | negSucc n =>
      simp [integerText, NumberText.integer?, Number.digitsValue_natDigits, Int.negSucc_eq]

/-- An integer with a sign is negative, so that zero has none. -/
def NumberText.Plain (n : NumberText) : Prop :=
  n.negative = true → n.integer? ≠ some 0

theorem plain_integerText (n : Int) : (integerText n).Plain := by
  intro hnegative
  rw [integer?_integerText]
  rintro ⟨⟩
  cases hnegative

theorem NumberText.datum?_of_integer? {n : NumberText} {value : Int}
    (h : n.integer? = some value) (hplain : n.Plain) :
    n.datum? =
      if -(twoTo 63 : Int) ≤ value ∧ value < twoTo 64 then some (.integer value)
      else n.double?.map .float := by
  have hzero := fun hnegative => h ▸ hplain hnegative
  obtain ⟨negative, whole, fraction, exponent⟩ := n
  obtain ⟨rfl, rfl⟩ : fraction = none ∧ exponent = none := by
    unfold NumberText.integer? at h
    split at h
    next hfraction hexponent => exact ⟨hfraction, hexponent⟩
    next => cases h
  have hpos := twoTo_pos 63
  cases negative with
  | false =>
      obtain rfl : value = Binary64.digitsValue 0 whole := (Option.some.inj h).symm
      have hlimit : Binary64.digitsValue 0 whole ≤ significandLimit ↔
          -(twoTo 63 : Int) ≤ Binary64.digitsValue 0 whole ∧
            (Binary64.digitsValue 0 whole : Int) < twoTo 64 := by
        rw [significandLimit]
        have hlarge := twoTo_pos 64
        omega
      simp [NumberText.datum?, hlimit]
  | true =>
      obtain rfl : value = -Binary64.digitsValue 0 whole := (Option.some.inj h).symm
      have hlimit : (Binary64.digitsValue 0 whole ≠ 0 ∧ Binary64.digitsValue 0 whole ≤ twoTo 63) ↔
          -(twoTo 63 : Int) ≤ -Binary64.digitsValue 0 whole ∧
            -(Binary64.digitsValue 0 whole : Int) < twoTo 64 := by
        have := hzero rfl
        simp only [ne_eq, Option.some.injEq] at this
        omega
      simp [NumberText.datum?, hlimit]

/-- An integer of sixty-four bits is read as itself, and any other not as an integer. -/
theorem NumberText.tree_eq_integer_iff {n : NumberText} {value : Int}
    (h : n.integer? = some value) (hplain : n.Plain) {m : Int} :
    n.tree = .integer m ↔ m = value ∧ -(twoTo 63 : Int) ≤ value ∧ value < twoTo 64 := by
  rw [NumberText.tree, datum?_of_integer? h hplain]
  split
  next d hd =>
    split at hd
    next hrange =>
      cases hd
      simp [Datum.toTree, hrange, eq_comm]
    next hrange =>
      obtain ⟨x, _, rfl⟩ := Option.map_eq_some_iff.mp hd
      simp [Datum.toTree, hrange]
  next hd =>
    split at hd
    next => cases hd
    next hrange => simp [hrange]

theorem tree_integerText {n : Int} (hleast : -(twoTo 63 : Int) ≤ n) (hgreatest : n < twoTo 64) :
    (integerText n).tree = .integer n :=
  (NumberText.tree_eq_integer_iff (integer?_integerText n) (plain_integerText n)).mpr
    ⟨rfl, hleast, hgreatest⟩

/-! ## Data -/

theorem blanks_nil : Blanks [] := by
  intro c hc
  cases hc

theorem blanks_newLine (depth : Nat) : Blanks (newLine depth) := by
  intro c hc
  rcases List.mem_cons.mp hc with rfl | hc
  · rfl
  · rw [List.eq_of_mem_replicate hc]
    rfl

theorem blanks_space : Blanks [' '] := by
  intro c hc
  rw [List.mem_singleton.mp hc]
  rfl

/-- What is written of data, on one line or on many, spells the same value. -/
structure Writes (v : Value) (d : Datum) : Prop where
  tree : v.tree = d.toTree
  line : Spells v (write d)
  lines (depth : Nat) : Spells v (writeLines depth d)

structure WritesItems (vs : List Value) (items : List Datum) : Prop where
  trees : Value.trees vs = Datum.toTrees items
  line : SpellsItems vs (writeItems items)
  lines (depth : Nat) {tail : List Char} (htail : Blanks tail) :
    SpellsItems vs (writeItemLines depth items ++ tail)

structure WritesMembers (vs : List (String × Value)) (members : List (String × Datum)) : Prop where
  trees : Value.memberTrees vs = Datum.toMembers members
  line : SpellsMembers vs (writeMembers members)
  lines (depth : Nat) {tail : List Char} (htail : Blanks tail) :
    SpellsMembers vs (writeMemberLines depth members ++ tail)

theorem exists_writesItems {items : List Datum} (h : ∀ d ∈ items, ∃ v, Writes v d) :
    ∃ vs, WritesItems vs items := by
  induction items with
  | nil => exact ⟨[], rfl, .nil blanks_nil, fun _ _ htail => .nil htail⟩
  | cons d rest ih =>
      obtain ⟨v, hv⟩ := h d (List.mem_cons_self ..)
      obtain ⟨vs, hvs⟩ := ih fun x hx => h x (List.mem_cons_of_mem _ hx)
      refine ⟨v :: vs, by rw [Value.trees, Datum.toTrees, hv.tree, hvs.trees], ?_, ?_⟩
      · simpa [writeItems] using SpellsItems.cons blanks_nil blanks_nil hv.line hvs.line
      · intro depth tail htail
        simpa [writeItemLines] using
          SpellsItems.cons blanks_nil (blanks_newLine depth) (hv.lines depth)
            (hvs.lines depth htail)

theorem exists_writesMembers {members : List (String × Datum)}
    (h : ∀ m ∈ members, ∃ v, Writes v m.2) : ∃ vs, WritesMembers vs members := by
  induction members with
  | nil => exact ⟨[], rfl, .nil blanks_nil, fun _ _ htail => .nil htail⟩
  | cons m rest ih =>
      obtain ⟨name, d⟩ := m
      obtain ⟨v, hv⟩ := h (name, d) (List.mem_cons_self ..)
      obtain ⟨vs, hvs⟩ := ih fun x hx => h x (List.mem_cons_of_mem _ hx)
      have hname := spellsText_flatMap_writeChar name.toList
      refine ⟨(name, v) :: vs, by rw [Value.memberTrees, Datum.toMembers, hv.tree, hvs.trees],
        ?_, ?_⟩
      · simpa [writeMembers, writeText] using SpellsMembers.cons blanks_nil blanks_nil
          (.mk hname blanks_nil blanks_nil hv.line) hvs.line
      · intro depth tail htail
        simpa [writeMemberLines, writeText] using
          SpellsMembers.cons blanks_nil (blanks_newLine depth)
            (.mk hname blanks_nil blanks_space (hv.lines depth)) (hvs.lines depth htail)

theorem exists_writes {d : Datum} (h : d.Exact) : ∃ v, Writes v d := by
  induction h with
  | null => exact ⟨.null, rfl, .null, fun _ => .null⟩
  | bool b =>
      cases b with
      | true => exact ⟨.bool true, rfl, .wordTrue, fun _ => .wordTrue⟩
      | false => exact ⟨.bool false, rfl, .wordFalse, fun _ => .wordFalse⟩
  | @integer n hleast hgreatest =>
      have hspelled : Spells (.number (integerText n)) (write (.integer n)) :=
        .number (spellsNumber_intDigits n)
      exact ⟨.number (integerText n), tree_integerText hleast hgreatest, hspelled,
        fun _ => hspelled⟩
  | text s =>
      have hspelled : Spells (.text s) (write (.text s)) :=
        .text (spellsText_flatMap_writeChar s.toList)
      exact ⟨_, rfl, hspelled, fun _ => hspelled⟩
  | @list items _ ih =>
      cases items with
      | nil => exact ⟨.list [], rfl, .emptyList blanks_nil, fun _ => .emptyList blanks_nil⟩
      | cons d rest =>
          obtain ⟨v, hv⟩ := ih d (List.mem_cons_self ..)
          obtain ⟨vs, hvs⟩ := exists_writesItems fun x hx => ih x (List.mem_cons_of_mem _ hx)
          refine ⟨.list (v :: vs), ?_, ?_, fun depth => ?_⟩
          · simp only [Value.tree, Value.trees, Datum.toTree, Datum.toTrees, hv.tree, hvs.trees]
          · simpa [write] using Spells.list blanks_nil hv.line hvs.line
          · simpa [writeLines] using Spells.list (blanks_newLine _) (hv.lines _)
              (hvs.lines (depth + 1) (blanks_newLine depth))
  | @record members _ ih =>
      cases members with
      | nil => exact ⟨.record [], rfl, .emptyRecord blanks_nil, fun _ => .emptyRecord blanks_nil⟩
      | cons m rest =>
          obtain ⟨name, d⟩ := m
          obtain ⟨v, hv⟩ := ih (name, d) (List.mem_cons_self ..)
          obtain ⟨vs, hvs⟩ := exists_writesMembers fun x hx => ih x (List.mem_cons_of_mem _ hx)
          have hname := spellsText_flatMap_writeChar name.toList
          refine ⟨.record ((name, v) :: vs), ?_, ?_, fun depth => ?_⟩
          · simp only [Value.tree, Value.memberTrees, Datum.toTree, Datum.toMembers, hv.tree,
              hvs.trees]
          · simpa [write, writeText] using Spells.record blanks_nil
              (.mk hname blanks_nil blanks_nil hv.line) hvs.line
          · simpa [writeLines, writeText] using Spells.record (blanks_newLine _)
              (.mk hname blanks_nil blanks_space (hv.lines _))
              (hvs.lines (depth + 1) (blanks_newLine depth))

/-- What is written of data says a value of which the same data is read. -/
theorem exists_says {d : Datum} (h : d.Exact) :
    ∃ v : Value, v.tree = d.toTree ∧ Says (text d) v ∧ Says (prettyText d) v := by
  obtain ⟨v, hv⟩ := exists_writes h
  refine ⟨v, hv.tree, ?_, ?_⟩
  · simpa [text] using Says.mk blanks_nil hv.line blanks_nil
  · simpa [prettyText] using Says.mk blanks_nil (hv.lines 0) blanks_nil

/-- The text of data is a document also with the end of a line after it. -/
theorem readDatum?_prettyText_line {d : Datum} (h : d.Exact) :
    readDatum? (prettyText d ++ "\n") = some d := by
  obtain ⟨v, hv⟩ := exists_writes h
  have hsays : Says (String.ofList ([] ++ (writeLines 0 d ++ newLine 0))) v :=
    .mk blanks_nil (hv.lines 0) (blanks_newLine 0)
  have htext : prettyText d ++ "\n" = String.ofList ([] ++ (writeLines 0 d ++ newLine 0)) := by
    rw [List.nil_append, String.ofList_append]
    rfl
  simp only [readDatum?, htext, hsays.read, hv.tree, Bool.false_eq_true, if_false]
  exact d.datum?_toTree

theorem decode_text {α : Type} {d : Datum} (h : d.Exact) (decoder : Dialect → Tree → Decoded α) :
    decode decoder (text d) = decoder dialect d.toTree ∧
      decode decoder (prettyText d) = decoder dialect d.toTree := by
  obtain ⟨v, htree, hline, hlines⟩ := exists_says h
  rw [hline.decode, hlines.decode, htree]
  exact ⟨rfl, rfl⟩

end Json

end PluginHost
