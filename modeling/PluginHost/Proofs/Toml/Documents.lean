import PluginHost.Proofs.Data.Structures
import PluginHost.Proofs.Toml.Lines

/-! # Documents that were written

A document of values under plain names, with one level of tables, is read back with the same
members. Only their order may differ, since a document that was read has its members in the order
of their names. -/

namespace PluginHost.Toml

/-! ## How documents are written -/

/-- How a document is written: lines of pairs and of headers, and empty lines. -/
inductive Spells : List Char → List Pair → List Section → Prop where
  | nil : Spells [] [] []
  | blank {cs pairs sections} (h : Spells cs pairs sections) :
      Spells ('\n' :: cs) pairs sections
  | pair {name d cs pairs sections} (hname : PlainName name) (hd : Plain d)
      (h : Spells cs pairs sections) :
      Spells (pairText name d ++ '\n' :: cs) (⟨[], name, d⟩ :: pairs) sections
  | header {name cs pairs sections} (hname : PlainName name) (h : Spells cs pairs sections) :
      Spells ('[' :: (name.toList ++ ']' :: '\n' :: cs)) []
        (⟨[], name, false, pairs⟩ :: sections)

theorem scanAll_line {cs tail : List Char} {line : Line} {lines : List Line} {n : Nat}
    (hline : scanLine cs = some (line, '\n' :: tail)) (hcs : cs ≠ [])
    (h : scanAll n tail = some lines) : scanAll (n + 1) cs = some (line :: lines) := by
  obtain ⟨c, more, rfl⟩ := List.exists_cons_of_ne_nil hcs
  simp [scanAll, hline, endLine_newline, h]

theorem Spells.read {cs : List Char} {pairs : List Pair} {found : List Section}
    (h : Spells cs pairs found) {n : Nat} (hn : cs.length ≤ n) :
    ∃ lines, scanAll n cs = some lines ∧ sections lines = (pairs, found) := by
  induction h generalizing n with
  | nil => exact ⟨[], by simp [scanAll], rfl⟩
  | blank _ ih =>
      obtain ⟨n, rfl⟩ : ∃ m, n = m + 1 := ⟨n - 1, by simp at hn; omega⟩
      obtain ⟨lines, hlines, hsections⟩ := ih (n := n) (by simpa using hn)
      exact ⟨.blank :: lines, scanAll_line (scanLine_blank _) (List.cons_ne_nil _ _) hlines,
        hsections⟩
  | pair hname hd _ ih =>
      obtain ⟨n, rfl⟩ : ∃ m, n = m + 1 := ⟨n - 1, by simp at hn; omega⟩
      obtain ⟨lines, hlines, hsections⟩ := ih (n := n) (by simp at hn; omega)
      exact ⟨_, scanAll_line (scanLine_pair hname hd _) (by simp) hlines, by
        simp [sections, hsections]⟩
  | header hname _ ih =>
      obtain ⟨n, rfl⟩ : ∃ m, n = m + 1 := ⟨n - 1, by simp at hn; omega⟩
      obtain ⟨lines, hlines, hsections⟩ := ih (n := n) (by simp at hn; omega)
      exact ⟨_, scanAll_line (scanLine_header hname _) (by simp) hlines, by
        simp [sections, hsections]⟩

theorem Spells.skipMark {cs : List Char} {pairs : List Pair} {found : List Section}
    (h : Spells cs pairs found) : skipMark cs = cs := by
  cases h with
  | nil => rfl
  | blank => rfl
  | pair hname =>
      obtain ⟨c, more, hstart, hc⟩ := hname.exists_start
      have hmark : c ≠ '\ufeff' := ne_of_isNameChar hc (by decide)
      rw [pairText, hstart]
      simp [Toml.skipMark, hmark]
  | header => rfl

/-! ## Tables -/

def Pair.node (p : Pair) : String × Node :=
  (p.name, .value p.value)

def Section.node (s : Section) : String × Node :=
  (s.name, .table .header (s.pairs.map Pair.node))

theorem names_nodes (pairs : List Pair) :
    (pairs.map Pair.node).map Prod.fst = pairs.map Pair.name := by
  rw [List.map_map]
  rfl

theorem lookup_eq_none {es : Entries} {name : String} {names : List String}
    (h : (es.map Prod.fst ++ name :: names).Nodup) : es.lookup name = none := by
  rw [List.lookup_eq_none_iff]
  intro entry hentry
  have hne := (List.nodup_append.mp h).2.2 entry.1 (List.mem_map_of_mem hentry) name
    (List.mem_cons_self ..)
  simpa using Ne.symm hne

theorem addPairs_eq {es : Entries} {pairs : List Pair} (hpath : ∀ p ∈ pairs, p.path = [])
    (hdistinct : (es.map Prod.fst ++ pairs.map Pair.name).Nodup) :
    addPairs .header es pairs = some (es ++ pairs.map Pair.node) := by
  induction pairs generalizing es with
  | nil => simp [addPairs]
  | cons p rest ih =>
      have hadd : addPair .header es p = some (es ++ [p.node]) := by
        have hnew : es.lookup p.name = none := lookup_eq_none hdistinct
        simp [addPair, within, hpath p (List.mem_cons_self ..), hnew, Pair.node]
      have hrest := @ih (es ++ [p.node]) (fun q hq => hpath q (List.mem_cons_of_mem _ hq))
        (by simpa [Pair.node] using hdistinct)
      simp [addPairs, hadd, hrest]

theorem addSections_eq {es : Entries} {found : List Section}
    (hplain : ∀ s ∈ found, s.path = [] ∧ s.repeated = false ∧ (∀ p ∈ s.pairs, p.path = []) ∧
      (s.pairs.map Pair.name).Nodup)
    (hdistinct : (es.map Prod.fst ++ found.map Section.name).Nodup) :
    addSections es found = some (es ++ found.map Section.node) := by
  induction found generalizing es with
  | nil => simp [addSections]
  | cons s rest ih =>
      obtain ⟨hpath, hrepeated, hpaths, hnames⟩ := hplain s (List.mem_cons_self ..)
      have hadd : addSection es s = some (es ++ [s.node]) := by
        have hnew : es.lookup s.name = none := lookup_eq_none hdistinct
        have hmade := @addPairs_eq [] s.pairs hpaths (by simpa using hnames)
        simp [addSection, within, hpath, addToParent, hnew, hrepeated, hmade, Section.node]
      have hrest := @ih (es ++ [s.node]) (fun q hq => hplain q (List.mem_cons_of_mem _ hq))
        (by simpa [Section.node] using hdistinct)
      simp [addSections, hadd, hrest]

theorem members_perm {es : Entries} (h : (es.map Prod.fst).Nodup) :
    (Node.members es).Perm (es.map fun entry => (entry.1, entry.2.datum)) := by
  induction es with
  | nil => exact .refl _
  | cons entry rest ih =>
      obtain ⟨name, node⟩ := entry
      obtain ⟨hnew, hrest⟩ := List.nodup_cons.mp h
      have hperm := ih hrest
      have hnames : (Node.members rest).map Prod.fst ⊆ rest.map Prod.fst := by
        simpa [List.map_map, Function.comp_def] using (hperm.map Prod.fst).subset
      rw [Node.members, List.map_cons]
      exact (Named.insert_perm (mt (@hnames name) hnew)).trans (hperm.cons _)

/-! ## Writing -/

/-- The pairs of a record: its members that are no records. -/
def pairsOf : List (String × Datum) → List Pair
  | [] => []
  | (_, .record _) :: rest => pairsOf rest
  | (name, d) :: rest => ⟨[], name, d⟩ :: pairsOf rest

/-- The sections of a record: its members that are records. -/
def sectionsOf : List (String × Datum) → List Section
  | [] => []
  | (name, .record members) :: rest => ⟨[], name, false, pairsOf members⟩ :: sectionsOf rest
  | _ :: rest => sectionsOf rest

/-- A member of a document: a plain value, or a table of plain values under names of their own. -/
inductive Entry : Datum → Prop where
  | plain {d} (h : Plain d) : Entry d
  | table {members : List (String × Datum)} (h : ∀ m ∈ members, PlainName m.1 ∧ Plain m.2)
      (hdistinct : (members.map Prod.fst).Nodup) : Entry (.record members)

/-- The members of a document. -/
structure Document (members : List (String × Datum)) : Prop where
  entries : ∀ m ∈ members, PlainName m.1 ∧ Entry m.2
  distinct : (members.map Prod.fst).Nodup

section

variable {fields : List (String × Option Datum)}
  (hnames : ∀ name ∈ fields.map Prod.fst, PlainName name)
  (hdistinct : (fields.map Prod.fst).Nodup)
  (hplain : ∀ name d, (name, some d) ∈ fields → Plain d)

include hnames hplain in
theorem plain_present : ∀ m ∈ present fields, PlainName m.1 ∧ Plain m.2 := fun m hm =>
  ⟨hnames m.1 (List.mem_map_of_mem (mem_present.mp hm)), hplain m.1 m.2 (mem_present.mp hm)⟩

include hnames hdistinct hplain

theorem entry_present : Entry (.record (present fields)) :=
  .table (plain_present hnames hplain) (hdistinct.sublist (names_present fields))

theorem document_present : Document (present fields) where
  entries m hm := (plain_present hnames hplain m hm).imp_right .plain
  distinct := hdistinct.sublist (names_present fields)

end

theorem spells_writePairs {members : List (String × Datum)}
    (h : ∀ m ∈ members, PlainName m.1 ∧ Entry m.2) {tail : List Char} {pairs : List Pair}
    {found : List Section} (htail : Spells tail pairs found) :
    Spells (writePairs members ++ tail) (pairsOf members ++ pairs) found := by
  induction members with
  | nil => exact htail
  | cons m rest ih =>
      obtain ⟨name, d⟩ := m
      obtain ⟨hname, hd⟩ := h (name, d) (List.mem_cons_self ..)
      have hrest := ih fun m hm => h m (List.mem_cons_of_mem _ hm)
      cases hd with
      | table => exact hrest
      | plain hd =>
          have hline : writePairs ((name, d) :: rest) = pairText name d ++ '\n' :: writePairs rest ∧
              pairsOf ((name, d) :: rest) = ⟨[], name, d⟩ :: pairsOf rest := by
            cases hd <;> simp [writePairs, pairsOf, pairText, hname.writeName_eq]
          rw [hline.1, hline.2, List.append_assoc, List.cons_append]
          exact .pair hname hd hrest

/-- What is written of a member that is a record. -/
def sectionText (name : String) (members : List (String × Datum)) : List Char :=
  '[' :: writeName name ++ [']', '\n'] ++ writePairs members

theorem spells_sectionText {name : String} (hname : PlainName name)
    {members : List (String × Datum)} (h : ∀ m ∈ members, PlainName m.1 ∧ Entry m.2)
    {tail : List Char} {found : List Section} (htail : Spells tail [] found) :
    Spells (sectionText name members ++ tail) [] (⟨[], name, false, pairsOf members⟩ :: found) := by
  have hpairs := Spells.header hname (spells_writePairs h htail)
  simpa [sectionText, hname.writeName_eq] using hpairs

/-- A part and then others, with an empty line between any two. -/
theorem spells_parts {part : List Char} {parts : List (List Char)} {pairs : List Pair}
    {found more : List Section}
    (h : ∀ {tail}, Spells tail [] more → Spells (part ++ tail) pairs found)
    (hmore : Spells (List.intercalate ['\n'] parts) [] more) :
    Spells (List.intercalate ['\n'] (part :: parts)) pairs found := by
  cases parts with
  | nil => simpa [List.intercalate] using h hmore
  | cons next parts =>
      rw [List.intercalate_cons_cons, List.append_assoc]
      exact h (.blank hmore)

theorem spells_writeSections {members : List (String × Datum)}
    (h : ∀ m ∈ members, PlainName m.1 ∧ Entry m.2) :
    Spells (List.intercalate ['\n'] (writeSections members)) [] (sectionsOf members) := by
  induction members with
  | nil => exact .nil
  | cons m rest ih =>
      obtain ⟨name, d⟩ := m
      obtain ⟨hname, hd⟩ := h (name, d) (List.mem_cons_self ..)
      have hrest := ih fun m hm => h m (List.mem_cons_of_mem _ hm)
      cases hd with
      | plain hd =>
          cases hd <;> exact hrest
      | @table inner hinner =>
          have hsection {tail : List Char} (htail : Spells tail [] (sectionsOf rest)) :=
            spells_sectionText hname (fun m hm => ⟨(hinner m hm).1, .plain (hinner m hm).2⟩) htail
          exact spells_parts hsection hrest

theorem spells_text {members : List (String × Datum)}
    (h : ∀ m ∈ members, PlainName m.1 ∧ Entry m.2) :
    Spells (text members).toList (pairsOf members) (sectionsOf members) := by
  have hsections := spells_writeSections h
  rw [text, String.toList_ofList]
  split
  next hempty =>
    have hpairs := spells_writePairs h hsections
    rw [List.isEmpty_iff.mp hempty, List.append_nil] at hpairs
    exact hpairs
  next =>
    rw [List.singleton_append]
    refine spells_parts (fun htail => ?_) hsections
    simpa using spells_writePairs h htail

/-! ## Reading what was written -/

/-- What stands under a name of a document that was read. -/
def nodeOf : Datum → Node
  | .record members => .table .header ((pairsOf members).map Pair.node)
  | d => .value d

theorem nodes_perm (members : List (String × Datum)) :
    ((pairsOf members).map Pair.node ++ (sectionsOf members).map Section.node).Perm
      (members.map fun m => (m.1, nodeOf m.2)) := by
  induction members with
  | nil => exact .refl _
  | cons m rest ih =>
      obtain ⟨name, d⟩ := m
      cases d with
      | record inner => exact List.perm_middle.trans (ih.cons _)
      | null | bool | integer | float | text | list => exact ih.cons _

theorem path_of_mem_pairsOf {members : List (String × Datum)} {p : Pair}
    (h : p ∈ pairsOf members) : p.path = [] := by
  induction members with
  | nil => cases h
  | cons m rest ih =>
      obtain ⟨name, d⟩ := m
      cases d with
      | record inner => exact ih h
      | null | bool | integer | float | text | list =>
          rcases List.mem_cons.mp h with rfl | h
          · rfl
          · exact ih h

theorem names_pairsOf (members : List (String × Datum)) :
    ((pairsOf members).map Pair.name).Sublist (members.map Prod.fst) := by
  induction members with
  | nil => exact .slnil
  | cons m rest ih =>
      obtain ⟨name, d⟩ := m
      cases d with
      | record inner => exact ih.cons _
      | null | bool | integer | float | text | list => exact ih.cons_cons _

theorem of_mem_sectionsOf {members : List (String × Datum)} {s : Section}
    (h : s ∈ sectionsOf members) :
    ∃ inner, (s.name, .record inner) ∈ members ∧ s = ⟨[], s.name, false, pairsOf inner⟩ := by
  induction members with
  | nil => cases h
  | cons m rest ih =>
      obtain ⟨name, d⟩ := m
      cases d with
      | record inner =>
          rcases List.mem_cons.mp h with rfl | h
          · exact ⟨inner, List.mem_cons_self .., rfl⟩
          · obtain ⟨inner, hmem, hs⟩ := ih h
            exact ⟨inner, List.mem_cons_of_mem _ hmem, hs⟩
      | null | bool | integer | float | text | list =>
          obtain ⟨inner, hmem, hs⟩ := ih h
          exact ⟨inner, List.mem_cons_of_mem _ hmem, hs⟩

theorem Plain.datum_nodeOf {d : Datum} (h : Plain d) : (nodeOf d).datum = d := by
  cases h <;> rfl

theorem nodup_pairsOf {members : List (String × Datum)} (h : (members.map Prod.fst).Nodup) :
    ((pairsOf members).map Pair.name).Nodup :=
  h.sublist (names_pairsOf members)

/-- Only the order of the members of a table may differ. -/
theorem exists_table_nodeOf {members : List (String × Datum)} (h : ∀ m ∈ members, Plain m.2)
    (hdistinct : (members.map Prod.fst).Nodup) :
    ∃ read, (nodeOf (.record members)).datum = .record read ∧ read.Perm members := by
  have hnames : (((pairsOf members).map Pair.node).map Prod.fst).Nodup := by
    rw [names_nodes]
    exact nodup_pairsOf hdistinct
  refine ⟨_, rfl, (members_perm hnames).trans ?_⟩
  clear hnames hdistinct
  have hpairs : ((pairsOf members).map Pair.node).map (fun entry => (entry.1, entry.2.datum)) =
      members := by
    induction members with
    | nil => rfl
    | cons m rest ih =>
        obtain ⟨name, d⟩ := m
        have hrest := ih fun m hm => h m (List.mem_cons_of_mem _ hm)
        cases h (name, d) (List.mem_cons_self ..) <;> exact congrArg (List.cons (name, _)) hrest
  rw [hpairs]

theorem Document.nodup_names {members : List (String × Datum)} (h : Document members) :
    ((pairsOf members).map Pair.name ++ (sectionsOf members).map Section.name).Nodup := by
  have hperm := (nodes_perm members).map Prod.fst
  have hsections : Prod.fst ∘ Section.node = Section.name := rfl
  have hnames : (Prod.fst ∘ fun m : String × Datum => (m.1, nodeOf m.2)) = Prod.fst := rfl
  rw [List.map_append, names_nodes, List.map_map, List.map_map, hsections, hnames] at hperm
  exact hperm.nodup_iff.mpr h.distinct

theorem Document.sections_plain {members : List (String × Datum)} (h : Document members) :
    ∀ s ∈ sectionsOf members, s.path = [] ∧ s.repeated = false ∧ (∀ p ∈ s.pairs, p.path = []) ∧
      (s.pairs.map Pair.name).Nodup := by
  intro s hs
  obtain ⟨inner, hmem, hs⟩ := of_mem_sectionsOf hs
  have hentry := (h.entries _ hmem).2
  rw [hs]
  cases hentry with
  | plain hplain => cases hplain
  | table _ hdistinct =>
      exact ⟨rfl, rfl, fun p hp => path_of_mem_pairsOf hp, nodup_pairsOf hdistinct⟩

/-- A document is read back with its members, and so is each of its tables, up to their order. -/
theorem Document.exists_read {members : List (String × Datum)} (h : Document members) :
    ∃ read, readDocument? (text members) = some (.record read) ∧
      read.Perm (members.map fun m => (m.1, (nodeOf m.2).datum)) := by
  have hspelled := spells_text h.entries
  -- Pairs and tables are added one after the other, and each name is new when it is added.
  have hnames := h.nodup_names
  obtain ⟨lines, hlines, hsections⟩ := hspelled.read (n := (text members).toList.length + 1)
    (Nat.le_succ _)
  have hpairs := @addPairs_eq [] (pairsOf members) (fun p hp => path_of_mem_pairsOf hp)
    (nodup_pairsOf h.distinct)
  have hadded := @addSections_eq ((pairsOf members).map Pair.node) (sectionsOf members)
    h.sections_plain (by rwa [names_nodes])
  rw [List.nil_append] at hpairs
  refine ⟨Node.members ((pairsOf members).map Pair.node ++ (sectionsOf members).map Section.node),
    ?_, ?_⟩
  · simp [readDocument?, hspelled.skipMark, hlines, hsections, hpairs, hadded]
  · have hnodes := (nodes_perm members).map fun entry => (entry.1, entry.2.datum)
    rw [List.map_map] at hnodes
    refine (members_perm ?_).trans hnodes
    rw [List.map_append, names_nodes, List.map_map]
    exact hnames

end PluginHost.Toml
