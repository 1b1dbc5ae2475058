import PluginHost.Json.Reader
import PluginHost.Proofs.Data.Structures
import PluginHost.Proofs.Json.Lexemes

/-! # Reading what is spelled

The reader reads every text of the grammar, and as what it says. The bound on its steps never runs
out: three for each character are enough. -/

namespace PluginHost.Json

open Text

/-! ## Blanks -/

theorem skipSpace_append {blanks : List Char} (h : Blanks blanks) (rest : List Char) :
    skipSpace (blanks ++ rest) = skipSpace rest :=
  List.dropWhile_append_of_pos h

theorem skipSpace_of_start {c : Char} (h : isSpace c = false) (rest : List Char) :
    skipSpace (c :: rest) = c :: rest := by
  simp [skipSpace, h]

theorem readValue_blanks {blanks : List Char} (h : Blanks blanks) (n : Nat) (rest : List Char) :
    readValue n (blanks ++ rest) = readValue n rest := by
  cases n with
  | zero => simp only [readValue]
  | succ n => simp only [readValue, skipSpace_append h]

theorem readItems_blanks {blanks : List Char} (h : Blanks blanks) (n : Nat) (first : Bool)
    (rest : List Char) : readItems n first (blanks ++ rest) = readItems n first rest := by
  cases n with
  | zero => simp only [readItems]
  | succ n => simp only [readItems, skipSpace_append h]

theorem readMembers_blanks {blanks : List Char} (h : Blanks blanks) (n : Nat)
    (rest : List Char) : readMembers n (blanks ++ rest) = readMembers n rest := by
  cases n with
  | zero => simp only [readMembers]
  | succ n => simp only [readMembers, skipSpace_append h]

/-! ## How spelled values begin and end -/

theorem not_isSpace_of_isDigit {c : Char} (h : c.isDigit = true) : isSpace c = false := by
  simp only [isSpace, Bool.or_eq_false_iff, beq_eq_false_iff_ne]
  refine ⟨⟨⟨?_, ?_⟩, ?_⟩, ?_⟩ <;> rintro rfl <;> simp at h

/-- A value begins neither with a blank nor with what closes a list. -/
theorem Spells.start {v : Value} {cs : List Char} (h : Spells v cs) :
    ∃ c rest, cs = c :: rest ∧ isSpace c = false ∧ c ≠ ']' := by
  cases h with
  | number h =>
      obtain ⟨c, rest, rfl, rfl | hdigit⟩ := h.exists_start
      · exact ⟨_, _, rfl, rfl, by decide⟩
      · refine ⟨c, rest, rfl, not_isSpace_of_isDigit hdigit, ?_⟩
        rintro rfl
        simp at hdigit
  | _ => exact ⟨_, _, rfl, rfl, by decide⟩

/-- A number may end before blanks and what closes or goes on with a list or a record. -/
theorem endsNumber_blanks {blanks rest : List Char} (h : Blanks blanks) (hrest : EndsNumber rest) :
    EndsNumber (blanks ++ rest) := by
  cases blanks with
  | nil => exact hrest
  | cons b blanks =>
      rintro c ⟨rfl⟩
      have hb := h b (List.mem_cons_self ..)
      simp only [isSpace, Bool.or_eq_true, beq_iff_eq] at hb
      rcases hb with ((rfl | rfl) | rfl) | rfl <;> decide

theorem endsNumber_cons {c : Char} (h : c = ',' ∨ c = ']' ∨ c = '\x7d') (rest : List Char) :
    EndsNumber (c :: rest) := by
  rintro x ⟨rfl⟩
  rcases h with rfl | rfl | rfl <;> decide

theorem SpellsItems.endsNumber {items : List Value} {cs : List Char} (h : SpellsItems items cs)
    (rest : List Char) : EndsNumber (cs ++ ']' :: rest) := by
  cases h with
  | nil h => exact endsNumber_blanks h (endsNumber_cons (.inr (.inl rfl)) rest)
  | cons hgap =>
      rw [List.append_assoc]
      exact endsNumber_blanks hgap (endsNumber_cons (.inl rfl) _)

theorem SpellsMembers.endsNumber {members : List (String × Value)} {cs : List Char}
    (h : SpellsMembers members cs) (rest : List Char) : EndsNumber (cs ++ '\x7d' :: rest) := by
  cases h with
  | nil h => exact endsNumber_blanks h (endsNumber_cons (.inr (.inr rfl)) rest)
  | cons hgap =>
      rw [List.append_assoc]
      exact endsNumber_blanks hgap (endsNumber_cons (.inl rfl) _)

/-! ## One step of the reader -/

theorem skipSpace_comma (rest : List Char) : skipSpace (',' :: rest) = ',' :: rest :=
  skipSpace_of_start rfl rest

theorem readItems_first {body more : List Char} {c : Char} (h : skipSpace body = c :: more)
    (hc : c ≠ ']') (n : Nat) : readItems (n + 1) true body = readItem n (c :: more) := by
  simp [readItems, h]

theorem readItems_comma {body more : List Char} {c : Char} (h : skipSpace body = c :: more)
    (hc : c ≠ ']') (n : Nat) : readItems (n + 1) false (',' :: body) = readItem n (c :: more) := by
  simp [readItems, skipSpace_comma, h, hc]

theorem readItem_of {cs after rest : List Char} {n : Nat} {t : Tree} {ts : List Tree}
    (hitem : readValue n cs = (t, some after))
    (hitems : readItems n false after = (ts, none, some rest)) :
    readItem (n + 1) cs = (t :: ts, none, some rest) := by
  simp [readItem, hitem, hitems]

theorem readMembers_comma {body more : List Char} (h : skipSpace body = '\x22' :: more) (n : Nat) :
    readMembers (n + 1) (',' :: body) = readMember n more := by
  simp [readMembers, skipSpace_comma, h]

theorem readValue_number {c : Char} (h : c = '-' ∨ c.isDigit = true) (n : Nat) (cs : List Char) :
    readValue (n + 1) (c :: cs) = readNumber (c :: cs) := by
  have hspace : isSpace c = false := by
    rcases h with rfl | hdigit
    · rfl
    · exact not_isSpace_of_isDigit hdigit
  have hother : c ≠ 'n' ∧ c ≠ 't' ∧ c ≠ 'f' ∧ c ≠ '\x22' ∧ c ≠ '[' ∧ c ≠ '\x7b' := by
    refine ⟨?_, ?_, ?_, ?_, ?_, ?_⟩ <;> rintro rfl <;> simp at h
  simp [readValue, skipSpace_of_start hspace, hother, h]

/-! ## Values -/

mutual

theorem Spells.read {v : Value} {cs : List Char} (h : Spells v cs) {n : Nat} {rest : List Char}
    (hn : 3 * cs.length ≤ n) (hrest : EndsNumber rest) :
    readValue n (cs ++ rest) = (v.tree, some rest) := by
  -- Three steps for each character: a value, its place among others, and what follows it there.
  obtain ⟨first, tail, hstart, hspace, _⟩ := h.start
  obtain ⟨m, rfl⟩ : ∃ m, n = m + 1 := ⟨n - 1, by simp [hstart] at hn; omega⟩
  have hskip : skipSpace (cs ++ rest) = cs ++ rest := by
    rw [hstart]
    exact skipSpace_of_start hspace _
  match h with
  | .null => rw [readValue, hskip]; rfl
  | .wordTrue => rw [readValue, hskip]; rfl
  | .wordFalse => rw [readValue, hskip]; rfl
  | .number h =>
      obtain ⟨c, more, rfl, hc⟩ := h.exists_start
      rw [List.cons_append, readValue_number hc]
      exact h.read hrest
  | @Spells.text _ cs h =>
      rw [readValue, hskip]
      simpa [Value.tree] using h.read rest
  | @Spells.emptyList blanks h =>
      obtain ⟨k, rfl⟩ : ∃ k, m = k + 1 := ⟨m - 1, by simp at hn; omega⟩
      have hclose : readItems (k + 1) true (blanks ++ ']' :: rest) = ([], none, some rest) := by
        rw [readItems_blanks h]
        rfl
      rw [readValue, hskip]
      simp [hclose, Value.tree, Value.trees]
  | @Spells.list _ items before cs more hbefore h hmore =>
      simp only [List.length_cons, List.length_append, List.length_nil] at hn
      obtain ⟨k, rfl⟩ : ∃ k, m = k + 2 := ⟨m - 2, by omega⟩
      have hitem := h.read (n := k) (by omega) (hmore.endsNumber rest)
      have hitems : readItems k false (more ++ ']' :: rest) =
          (Value.trees items, none, some rest) := hmore.read (by omega)
      obtain ⟨c, tail, rfl, hc, hbracket⟩ := h.start
      have hbody : skipSpace (before ++ (c :: tail ++ (more ++ ']' :: rest))) =
          c :: (tail ++ (more ++ ']' :: rest)) := by
        rw [skipSpace_append hbefore]
        exact skipSpace_of_start hc _
      have hlist := (readItems_first hbody hbracket (k + 1)).trans (readItem_of hitem hitems)
      simp only [List.cons_append] at hlist
      rw [readValue, hskip]
      simp [hlist, Value.tree, Value.trees]
  | @Spells.emptyRecord blanks h =>
      obtain ⟨k, rfl⟩ : ∃ k, m = k + 1 := ⟨m - 1, by simp at hn; omega⟩
      have hclose : readRecord (k + 1) (blanks ++ '\x7d' :: rest) =
          (.record [] none, some rest) := by
        rw [readRecord, skipSpace_append h]
        rfl
      rw [readValue, hskip]
      simp [hclose, Value.tree, Value.memberTrees]
  | @Spells.record _ members before cs more hbefore h hmore =>
      simp only [List.length_cons, List.length_append, List.length_nil] at hn
      obtain ⟨k, rfl⟩ : ∃ k, m = k + 2 := ⟨m - 2, by omega⟩
      have hmembers : readMembers k (more ++ '\x7d' :: rest) =
          (Value.memberTrees members, none, some rest) := hmore.read (by omega)
      have hmember := h.read (n := k) (by omega) (hmore.endsNumber rest) hmembers
      have hbody : skipSpace (before ++ '\x22' :: (cs ++ (more ++ '\x7d' :: rest))) =
          '\x22' :: (cs ++ (more ++ '\x7d' :: rest)) := by
        rw [skipSpace_append hbefore]
        rfl
      rw [readValue, hskip]
      simp [readRecord, hbody, hmember, Value.tree, Value.memberTrees]

theorem SpellsItems.read {items : List Value} {cs : List Char} (h : SpellsItems items cs)
    {n : Nat} {rest : List Char} (hn : 3 * cs.length + 1 ≤ n) :
    readItems n false (cs ++ ']' :: rest) = (Value.trees items, none, some rest) := by
  match h with
  | .nil h =>
      obtain ⟨m, rfl⟩ : ∃ m, n = m + 1 := ⟨n - 1, by omega⟩
      rw [readItems_blanks h]
      rfl
  | @SpellsItems.cons _ items gap before cs more hgap hbefore h hmore =>
      simp only [List.length_cons, List.length_append] at hn
      obtain ⟨k, rfl⟩ : ∃ k, n = k + 2 := ⟨n - 2, by omega⟩
      have hitem := h.read (n := k) (by omega) (hmore.endsNumber rest)
      have hitems : readItems k false (more ++ ']' :: rest) =
          (Value.trees items, none, some rest) := hmore.read (by omega)
      obtain ⟨c, tail, rfl, hc, hbracket⟩ := h.start
      have hbody : skipSpace (before ++ (c :: tail ++ (more ++ ']' :: rest))) =
          c :: (tail ++ (more ++ ']' :: rest)) := by
        rw [skipSpace_append hbefore]
        exact skipSpace_of_start hc _
      have hlist := (readItems_comma hbody hbracket (k + 1)).trans (readItem_of hitem hitems)
      rw [List.append_assoc, readItems_blanks hgap]
      simpa [Value.trees] using hlist

theorem SpellsMember.read {m : String × Value} {cs : List Char} (h : SpellsMember m cs) {n : Nat}
    {after rest : List Char} {members : List (MemberName × Tree)} (hn : 3 * cs.length ≤ n)
    (hends : EndsNumber after) (hmembers : readMembers n after = (members, none, some rest)) :
    readMember (n + 1) (cs ++ after) =
      ((.text m.1, m.2.tree) :: members, none, some rest) := by
  match h with
  | @SpellsMember.mk name v nameText afterName before cs hname hafterName hbefore h =>
      simp only [List.length_cons, List.length_append] at hn
      have hvalue := h.read (n := n) (by omega) hends
      have hcolon : skipSpace (afterName ++ ':' :: (before ++ (cs ++ after))) =
          ':' :: (before ++ (cs ++ after)) := by
        rw [skipSpace_append hafterName]
        rfl
      simp only [List.append_assoc, List.cons_append]
      rw [readMember, hname.read]
      simp only [nameOf, hcolon, readValue_blanks hbefore, hvalue, hmembers]

theorem SpellsMembers.read {members : List (String × Value)} {cs : List Char}
    (h : SpellsMembers members cs) {n : Nat} {rest : List Char} (hn : 3 * cs.length + 1 ≤ n) :
    readMembers n (cs ++ '\x7d' :: rest) = (Value.memberTrees members, none, some rest) := by
  match h with
  | .nil h =>
      obtain ⟨m, rfl⟩ : ∃ m, n = m + 1 := ⟨n - 1, by omega⟩
      rw [readMembers_blanks h]
      rfl
  | @SpellsMembers.cons _ members gap before cs more hgap hbefore h hmore =>
      simp only [List.length_cons, List.length_append] at hn
      obtain ⟨k, rfl⟩ : ∃ k, n = k + 2 := ⟨n - 2, by omega⟩
      have hmembers : readMembers k (more ++ '\x7d' :: rest) =
          (Value.memberTrees members, none, some rest) := hmore.read (by omega)
      have hmember := h.read (n := k) (by omega) (hmore.endsNumber rest) hmembers
      have hbody : skipSpace (before ++ '\x22' :: (cs ++ (more ++ '\x7d' :: rest))) =
          '\x22' :: (cs ++ (more ++ '\x7d' :: rest)) := by
        rw [skipSpace_append hbefore]
        rfl
      simp only [List.append_assoc, List.cons_append]
      rw [readMembers_blanks hgap, readMembers_comma hbody, hmember, Value.memberTrees]

end

/-! ## Documents -/

theorem Says.read {text : String} {v : Value} (h : Says text v) :
    readDocument text = ⟨v.tree, false⟩ := by
  cases h with
  | @mk _ before cs after hbefore h hafter =>
      have hends : EndsNumber after := by
        simpa using @endsNumber_blanks after [] hafter (by intro c hc; cases hc)
      have hread : readValue (3 * (before ++ (cs ++ after)).length + 3) (before ++ (cs ++ after)) =
          (v.tree, some after) := by
        rw [readValue_blanks hbefore]
        exact h.read (by simp only [List.length_append]; omega) hends
      have hrest : skipSpace after = [] := by
        rw [← List.append_nil after, skipSpace_append hafter]
        rfl
      simp only [readDocument, String.toList_ofList, hread, hrest]
      rfl

/-- A document is decoded as what it says. -/
theorem Says.decode {α : Type} {text : String} {v : Value} (h : Says text v)
    (decoder : Dialect → Tree → Decoded α) : decode decoder text = decoder dialect v.tree := by
  rw [Json.decode, h.read]
  cases decoder dialect v.tree with
  | error e => rfl
  | ok x => rfl

theorem root_of_decode {α : Type} {decoder : Dialect → Tree → Decoded α} {text : String} {x : α}
    (h : decode decoder text = .ok x) : decoder dialect (readDocument text).root = .ok x := by
  obtain ⟨y, hy, hrest⟩ := bind_eq_ok.mp h
  split at hrest
  next => cases hrest
  next =>
    cases hrest
    exact hy

/-! ## Passing over -/

theorem NumberText.skip_tree (n : NumberText) : n.tree.skip = .ok () := by
  unfold NumberText.tree
  split
  next d _ => exact Decode.skip_toTree d
  next => rfl

mutual

theorem skip_tree (v : Value) : v.tree.skip = .ok () := by
  match v with
  | .list items => simp [Value.tree, Tree.skip, skip_trees items, bind, Except.bind,
      ReadFault.raise]
  | .record members => simp [Value.tree, Tree.skip, skip_memberTrees members, bind, Except.bind,
      ReadFault.raise]
  | .number n => exact n.skip_tree
  | .null => rfl
  | .bool _ => rfl
  | .text _ => rfl

theorem skip_trees (items : List Value) : Tree.skipItems (Value.trees items) = .ok () := by
  match items with
  | [] => rfl
  | v :: rest => simp [Value.trees, Tree.skipItems, skip_tree v, skip_trees rest, bind,
      Except.bind]

theorem skip_memberTrees (members : List (String × Value)) :
    Tree.skipMembers (Value.memberTrees members) = .ok () := by
  match members with
  | [] => rfl
  | (_, v) :: rest => simp [Value.memberTrees, Tree.skipMembers, skip_tree v,
      skip_memberTrees rest, bind, Except.bind]

end

end PluginHost.Json
