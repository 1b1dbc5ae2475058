import Mathlib.Data.List.Nodup
import PluginHost.Data.Decode
import PluginHost.Proofs.Results

/-! # Decoding structures

The fields of a structure are those that the data gives. A structure is decoded if every field that
is given can be; members that belong to no field do not count. -/

namespace PluginHost

/-- What data gives for a field of a structure with these fields: the member of its name, or the
element at its place. -/
def Datum.field? (fields : List String) (name : String) : Datum → Option Datum
  | .record members => members.lookup name
  | .list items => items[fields.idxOf name]?
  | _ => none

namespace Decode

theorem mismatch_ne_ok {α : Type} (d : Dialect) (expected : String) (t : Tree) (x : α) :
    Decoded.mismatch d expected t ≠ .ok x := by
  intro h
  obtain ⟨found, _, hcomplaint⟩ := bind_eq_ok.mp h
  cases hcomplaint

/-! ## The fields that are given -/

theorem lookup_givenMembers {rules : List FieldRule} {given all : List (String × Tree)}
    {members : List (String × Datum)}
    (h : givenMembers rules given (Datum.toMembers members) = .ok all) {name : String}
    (hname : name ∈ rules.map FieldRule.name) :
    all.lookup name = (given.lookup name).or ((members.lookup name).map Datum.toTree) := by
  induction members generalizing given with
  | nil =>
      cases h
      simp
  | cons member rest ih =>
      obtain ⟨other, x⟩ := member
      simp only [Datum.toMembers, givenMembers] at h
      split at h
      · -- a member that is passed over
        rename_i hfind
        obtain ⟨_, _, hrest⟩ := bind_eq_ok.mp h
        have hne : name ≠ other := by
          rintro rfl
          obtain ⟨rule, hmem, hrule⟩ := List.mem_map.mp hname
          simpa [hrule] using List.find?_eq_none.mp hfind rule hmem
        rw [ih hrest, List.lookup_cons, beq_false_of_ne hne]
      · split at h
        · cases h
        · rename_i hnew
          obtain ⟨_, _, hrest⟩ := bind_eq_ok.mp h
          rw [ih hrest, List.lookup_append, List.lookup_cons]
          by_cases heq : name = other
          · subst heq
            simp_all
          · simp [List.lookup_cons, beq_false_of_ne heq]

theorem givenItems_eq {surplus : Surplus} {total : Nat} {ending : Option ReadFault}
    {rules : List FieldRule} {ts : List Tree} {given : List (String × Tree)}
    (h : givenItems surplus total ending rules ts = .ok given) :
    given = (rules.map FieldRule.name).zip ts := by
  induction rules generalizing ts given with
  | nil =>
      cases ts with
      | nil =>
          obtain ⟨_, _, hgiven⟩ := bind_eq_ok.mp h
          cases hgiven
          rfl
      | cons t rest =>
          cases surplus with
          | fault => cases h
          | tooLong => cases h
          | ignored =>
              cases h
              rfl
  | cons rule rules ih =>
      cases ts with
      | nil =>
          obtain ⟨_, _, hgiven⟩ := bind_eq_ok.mp h
          cases hgiven
          rfl
      | cons t rest =>
          obtain ⟨_, _, hrest⟩ := bind_eq_ok.mp h
          obtain ⟨more, hmore, hgiven⟩ := bind_eq_ok.mp hrest
          cases hgiven
          rw [ih hmore]
          rfl

theorem lookup_zip {α : Type} {names : List String} {name : String} (h : name ∈ names)
    (xs : List α) : (names.zip xs).lookup name = xs[names.idxOf name]? := by
  induction names generalizing xs with
  | nil => cases h
  | cons other rest ih =>
      cases xs with
      | nil => simp
      | cons x xs =>
          rw [List.zip_cons_cons, List.lookup_cons]
          by_cases heq : name = other
          · simp [heq]
          · have hrest : name ∈ rest := by simpa [heq] using h
            rw [beq_false_of_ne heq, List.idxOf_cons, beq_false_of_ne (Ne.symm heq), cond_false,
              List.getElem?_cons_succ]
            exact ih hrest xs

theorem toTrees_eq (items : List Datum) : Datum.toTrees items = items.map Datum.toTree := by
  induction items with
  | nil => rfl
  | cons d rest ih => rw [Datum.toTrees, ih, List.map_cons]

/-- The fields of a structure are those that the data gives. -/
theorem lookup_structureFields {d : Dialect} {title : String} {rules : List FieldRule}
    {document : Datum} {fields : Fields}
    (h : structureFields d title rules document.toTree = .ok fields) {name : String}
    (hname : name ∈ rules.map FieldRule.name) :
    fields.given.lookup name =
      (document.field? (rules.map FieldRule.name) name).map Datum.toTree := by
  cases document with
  | record members =>
      rw [Datum.toTree, structureFields] at h
      obtain ⟨given, hgiven, hrest⟩ := bind_eq_ok.mp h
      obtain ⟨_, _, hfields⟩ := bind_eq_ok.mp hrest
      cases hfields
      simpa [Datum.field?] using lookup_givenMembers hgiven hname
  | list items =>
      rw [Datum.toTree, structureFields] at h
      obtain ⟨given, hgiven, hfields⟩ := bind_eq_ok.mp h
      cases hfields
      simp only [givenItems_eq hgiven, lookup_zip hname, toTrees_eq, List.getElem?_map,
        Datum.field?]
  | null => exact absurd h (mismatch_ne_ok d _ _ _)
  | bool => exact absurd h (mismatch_ne_ok d _ _ _)
  | integer => exact absurd h (mismatch_ne_ok d _ _ _)
  | float => exact absurd h (mismatch_ne_ok d _ _ _)
  | text => exact absurd h (mismatch_ne_ok d _ _ _)

/-- A field that may be left out has the value that is given, or else the default one. -/
theorem withDefault_eq_ok {α : Type} {fields : Fields} {name : String} {default value : α}
    {decode : Tree → Decoded α} {given : Option Datum}
    (hgiven : fields.given.lookup name = given.map Datum.toTree)
    (h : fields.withDefault name default decode = .ok value) :
    (∃ x, given = some x ∧ decode x.toTree = .ok value) ∨ given = none ∧ value = default := by
  rw [Fields.withDefault, hgiven] at h
  cases given with
  | none =>
      cases h
      exact .inr ⟨rfl, rfl⟩
  | some x => exact .inl ⟨x, rfl, h⟩

theorem bool_eq_ok {d : Dialect} {x : Datum} {flag : Bool} :
    bool d x.toTree = .ok flag ↔ x = .bool flag := by
  constructor
  · intro h
    cases x with
    | bool b =>
        cases h
        rfl
    | null => exact absurd h (mismatch_ne_ok d _ _ _)
    | integer => exact absurd h (mismatch_ne_ok d _ _ _)
    | float => exact absurd h (mismatch_ne_ok d _ _ _)
    | text => exact absurd h (mismatch_ne_ok d _ _ _)
    | list => exact absurd h (mismatch_ne_ok d _ _ _)
    | record => exact absurd h (mismatch_ne_ok d _ _ _)
  · rintro rfl
    rfl

theorem integer_eq_ok {d : Dialect} {type : String} {least greatest n : Int} {t : Tree} :
    integer d type least greatest t = .ok n ↔ t = .integer n ∧ least ≤ n ∧ n ≤ greatest := by
  constructor
  · intro h
    unfold integer at h
    split at h
    next m =>
      split at h
      next hrange =>
        cases h
        exact ⟨rfl, hrange⟩
      next => cases h
    next => exact absurd h (mismatch_ne_ok _ _ _ _)
  · rintro ⟨rfl, hrange⟩
    simp [integer, hrange]

theorem text_toTree (d : Dialect) (s : String) : text d (Datum.text s).toTree = .ok s := rfl

/-- A list is decoded if every element is. -/
theorem list_map {α β : Type} (d : Dialect) {decode : Tree → Decoded β} {f : α → Datum} {g : α → β}
    {xs : List α} (h : ∀ x ∈ xs, decode (f x).toTree = .ok (g x)) :
    list d decode (Datum.list (xs.map f)).toTree = .ok (xs.map g) := by
  have hitems : items decode (Datum.toTrees (xs.map f)) = .ok (xs.map g) := by
    induction xs with
    | nil => rfl
    | cons x rest ih =>
        have hrest := ih fun y hy => h y (List.mem_cons_of_mem _ hy)
        simp [Datum.toTrees, items, h x (List.mem_cons_self ..), hrest, bind, Except.bind, pure,
          Except.pure]
  simp [Datum.toTree, list, hitems, Decoded.ofRead, ReadFault.raise, Except.mapError, bind,
    Except.bind, pure, Except.pure]

theorem list_text (d : Dialect) (xs : List String) :
    list d (text d) (Datum.list (xs.map .text)).toTree = .ok xs := by
  simpa using list_map d (g := id) fun (x : String) (_ : x ∈ xs) =>
    text_toTree d x

/-! ## Members beside others -/

mutual

theorem skip_toTree (d : Datum) : d.toTree.skip = .ok () := by
  match d with
  | .list items => simp [Datum.toTree, Tree.skip, skip_toTrees items, bind, Except.bind,
      ReadFault.raise]
  | .record members => simp [Datum.toTree, Tree.skip, skip_toMembers members, bind, Except.bind,
      ReadFault.raise]
  | .null => rfl
  | .bool _ => rfl
  | .integer _ => rfl
  | .float _ => rfl
  | .text _ => rfl

theorem skip_toTrees (items : List Datum) : Tree.skipItems (Datum.toTrees items) = .ok () := by
  match items with
  | [] => rfl
  | d :: rest => simp [Datum.toTrees, Tree.skipItems, skip_toTree d, skip_toTrees rest, bind,
      Except.bind]

theorem skip_toMembers (members : List (String × Datum)) :
    Tree.skipMembers (Datum.toMembers members) = .ok () := by
  match members with
  | [] => rfl
  | (_, d) :: rest => simp [Datum.toMembers, Tree.skipMembers, skip_toTree d, skip_toMembers rest,
      bind, Except.bind]

end

theorem exists_givenMembers {rules : List FieldRule} {given : List (String × Tree)}
    {members : List (String × Datum)}
    (htest : ∀ m ∈ members, ∀ rule ∈ rules, rule.name = m.1 → rule.test m.2.toTree = .ok ())
    (hnew : ∀ m ∈ members, m.1 ∈ rules.map FieldRule.name → given.lookup m.1 = none)
    (hnodup : ((members.filter fun m => (rules.map FieldRule.name).contains m.1).map
      Prod.fst).Nodup) :
    ∃ all, givenMembers rules given (Datum.toMembers members) = .ok all := by
  -- What was given so far has none of the names that are still to come.
  induction members generalizing given with
  | nil => exact ⟨given, rfl⟩
  | cons m rest ih =>
      obtain ⟨name, d⟩ := m
      have htestRest := fun m hm => htest m (List.mem_cons_of_mem _ hm)
      simp only [Datum.toMembers, givenMembers]
      cases hfind : rules.find? fun rule => rule.name == name with
      | none =>
          have hunknown : name ∉ rules.map FieldRule.name := by
            rintro hmem
            obtain ⟨rule, hrule, hname⟩ := List.mem_map.mp hmem
            simpa [hname] using List.find?_eq_none.mp hfind rule hrule
          rw [List.filter_cons, if_neg (by simpa using hunknown)] at hnodup
          have hrest := ih htestRest (fun m hm => hnew m (List.mem_cons_of_mem _ hm)) hnodup
          simpa [Decoded.ofRead, skip_toTree, Except.mapError, bind, Except.bind] using hrest
      | some rule =>
          have hrule := List.mem_of_find?_eq_some hfind
          have hname : rule.name = name := by simpa using List.find?_some hfind
          have hknown : name ∈ rules.map FieldRule.name := List.mem_map.mpr ⟨rule, hrule, hname⟩
          have hfree := hnew (name, d) (List.mem_cons_self ..) hknown
          have hpass := htest (name, d) (List.mem_cons_self ..) rule hrule hname
          rw [List.filter_cons, if_pos (by simpa using hknown), List.map_cons, List.nodup_cons]
            at hnodup
          have hfresh : ∀ m ∈ rest, m.1 ∈ rules.map FieldRule.name →
              (given ++ [(name, d.toTree)]).lookup m.1 = none := by
            intro m hm hmem
            have hne : m.1 ≠ name := by
              rintro rfl
              refine hnodup.1 (List.mem_map.mpr ⟨m, ?_, rfl⟩)
              exact List.mem_filter.mpr ⟨hm, by simpa using hmem⟩
            rw [List.lookup_append, hnew m (List.mem_cons_of_mem _ hm) hmem, Option.none_or,
              List.lookup_cons, beq_false_of_ne hne]
            rfl
          have hrest := ih htestRest hfresh hnodup.2
          simpa [hfree, hpass, bind, Except.bind] using hrest

end Decode

/-- Of the members of a record, those with one of the names are the given ones, in any order; the
others have names of their own. -/
def KnownMembers {α : Type} (names : List String) (known members : List (String × α)) : Prop :=
  (members.filter fun m => names.contains m.1).Perm known

section

variable {α : Type} {names : List String} {known members : List (String × α)}

theorem knownMembers_of_perm (h : members.Perm known) (hnames : ∀ m ∈ known, m.1 ∈ names) :
    KnownMembers names known members := by
  have hall : members.filter (fun m => names.contains m.1) = members := by
    rw [List.filter_eq_self]
    intro m hm
    simpa using hnames m (h.mem_iff.mp hm)
  rw [KnownMembers, hall]
  exact h

theorem KnownMembers.refl (h : ∀ m ∈ known, m.1 ∈ names) : KnownMembers names known known :=
  knownMembers_of_perm (.refl _) h

theorem KnownMembers.of_perm {read : List (String × α)} (h : KnownMembers names known members)
    (hperm : read.Perm members) : KnownMembers names known read :=
  (hperm.filter _).trans h

theorem KnownMembers.map_values {β : Type} (h : KnownMembers names known members) (f : α → β) :
    KnownMembers names (known.map fun m => (m.1, f m.2)) (members.map fun m => (m.1, f m.2)) := by
  rw [KnownMembers, List.filter_map]
  exact List.Perm.map _ h

theorem KnownMembers.mem (h : KnownMembers names known members) {m : String × α}
    (hm : m ∈ known) : m ∈ members :=
  (List.mem_filter.mp (h.mem_iff.mpr hm)).1

theorem lookup_eq_some_iff (h : (members.map Prod.fst).Nodup) {name : String} {x : α} :
    members.lookup name = some x ↔ (name, x) ∈ members := by
  induction members with
  | nil => simp
  | cons m rest ih =>
      obtain ⟨other, y⟩ := m
      rw [List.map_cons, List.nodup_cons] at h
      by_cases hname : name = other
      · subst hname
        have habsent : (name, x) ∉ rest := fun hmem => h.1 (List.mem_map.mpr ⟨_, hmem, rfl⟩)
        simp [habsent, eq_comm]
      · simp [List.lookup_cons, beq_false_of_ne hname, ih h.2, hname]

theorem lookup_filter {name : String} (h : name ∈ names) :
    (members.filter fun m => names.contains m.1).lookup name = members.lookup name := by
  induction members with
  | nil => rfl
  | cons m rest ih =>
      obtain ⟨other, x⟩ := m
      by_cases hname : name = other
      · subst hname
        simp [h]
      · rw [List.filter_cons]
        split
        · simp only [List.lookup_cons, beq_false_of_ne hname, ih]
        · simp only [List.lookup_cons, beq_false_of_ne hname, ih]

theorem KnownMembers.lookup (h : KnownMembers names known members)
    (hnodup : (known.map Prod.fst).Nodup) {name : String} (hname : name ∈ names) :
    members.lookup name = known.lookup name := by
  have hfiltered : ((members.filter fun m => names.contains m.1).map Prod.fst).Nodup :=
    (h.map Prod.fst).nodup_iff.mpr hnodup
  rw [← lookup_filter hname]
  ext x
  rw [lookup_eq_some_iff hfiltered, lookup_eq_some_iff hnodup, h.mem_iff]

end

/-- The members of the fields that are given. -/
def present (fields : List (String × Option Datum)) : List (String × Datum) :=
  fields.filterMap fun field => field.2.map fun d => (field.1, d)

theorem names_present (fields : List (String × Option Datum)) :
    ((present fields).map Prod.fst).Sublist (fields.map Prod.fst) := by
  induction fields with
  | nil => exact .slnil
  | cons field rest ih =>
      obtain ⟨name, d⟩ := field
      cases d with
      | none => exact ih.cons _
      | some d => exact ih.cons_cons _

theorem knownMembers_present (fields : List (String × Option Datum)) :
    KnownMembers (fields.map Prod.fst) (present fields) (present fields) :=
  .refl fun _ hm => (names_present fields).subset (List.mem_map_of_mem hm)

theorem mem_present {fields : List (String × Option Datum)} {m : String × Datum} :
    m ∈ present fields ↔ (m.1, some m.2) ∈ fields := by
  obtain ⟨name, d⟩ := m
  simp [present]

theorem lookup_present {fields : List (String × Option Datum)} (h : (fields.map Prod.fst).Nodup)
    (name : String) : (present fields).lookup name = (fields.lookup name).join := by
  induction fields with
  | nil => rfl
  | cons field rest ih =>
      obtain ⟨other, d⟩ := field
      obtain ⟨hnew, hrest⟩ := List.nodup_cons.mp h
      by_cases hname : name = other
      · subst hname
        have habsent : (present rest).lookup name = none := by
          rw [List.lookup_eq_none_iff]
          intro m hm
          have hne : name ≠ m.1 := by
            rintro rfl
            exact hnew ((names_present rest).subset (List.mem_map_of_mem hm))
          simpa using hne
        cases d with
        | none => simpa [present] using habsent
        | some d => simp [present]
      · have hbeq : (name == other) = false := beq_false_of_ne hname
        cases d with
        | none => simpa [present, List.lookup_cons, hbeq] using ih hrest
        | some d => simpa [present, List.lookup_cons, hbeq] using ih hrest

namespace Decode

section

variable {names : List String} {rules : List FieldRule} {known members : List (String × Datum)}

/-- A structure is decoded if each of its fields that is given can be, and none is given twice. -/
theorem exists_fields (hnames : rules.map FieldRule.name = names)
    (hdistinct : (known.map Prod.fst).Nodup) (h : KnownMembers names known members)
    (htest : ∀ rule ∈ rules, ∀ x, known.lookup rule.name = some x → rule.test x.toTree = .ok ())
    (d : Dialect) (title : String) :
    ∃ fields, structureFields d title rules (Datum.record members).toTree = .ok fields ∧
      fields.missing = .missingField ∧
      ∀ name ∈ names, fields.given.lookup name = (known.lookup name).map Datum.toTree := by
  subst hnames
  obtain ⟨all, hall⟩ : ∃ all, givenMembers rules [] (Datum.toMembers members) = .ok all := by
    refine exists_givenMembers (fun m hm rule hrule hname => ?_) (fun _ _ _ => rfl)
      ((h.map Prod.fst).nodup_iff.mpr hdistinct)
    have hfiltered : m ∈ members.filter fun m => (rules.map FieldRule.name).contains m.1 :=
      List.mem_filter.mpr ⟨hm, by simpa using ⟨rule, hrule, hname⟩⟩
    exact htest rule hrule m.2
      ((lookup_eq_some_iff hdistinct).mpr (hname ▸ h.mem_iff.mp hfiltered))
  have hfields : structureFields d title rules (Datum.record members).toTree =
      .ok ⟨all, .missingField⟩ := by
    simp [Datum.toTree, structureFields, hall, Decoded.ofRead, ReadFault.raise, Except.mapError,
      bind, Except.bind, pure, Except.pure]
  refine ⟨_, hfields, rfl, fun name hname => ?_⟩
  rw [lookup_structureFields hfields hname, Datum.field?, h.lookup hdistinct hname]

/-- What is made of a structure whose given fields can all be decoded. -/
theorem structure_eq_ok {α : Type} {d : Dialect} {title : String} {make : Fields → Decoded α}
    {x : α} (hnames : rules.map FieldRule.name = names) (hdistinct : names.Nodup)
    (hknown : (known.map Prod.fst).Sublist names) (h : KnownMembers names known members)
    (htest : ∀ rule ∈ rules, ∀ x, known.lookup rule.name = some x → rule.test x.toTree = .ok ())
    (hmake : ∀ fields : Fields, (∀ name ∈ names,
      fields.given.lookup name = (known.lookup name).map Datum.toTree) → make fields = .ok x) :
    (structureFields d title rules (Datum.record members).toTree >>= make) = .ok x := by
  obtain ⟨fields, hfields, _, hgiven⟩ :=
    exists_fields hnames (hdistinct.sublist hknown) h htest d title
  exact bind_eq_ok.mpr ⟨fields, hfields, hmake fields hgiven⟩

/-- What is made of a structure of whose fields some are given. -/
theorem structure_present_eq_ok {α : Type} {d : Dialect} {title : String}
    {make : Fields → Decoded α} {x : α} (fields : List (String × Option Datum))
    (hnames : rules.map FieldRule.name = fields.map Prod.fst)
    (hdistinct : (fields.map Prod.fst).Nodup)
    (h : KnownMembers (fields.map Prod.fst) (present fields) members)
    (htest : ∀ rule ∈ rules, ∀ x, fields.lookup rule.name = some (some x) →
      rule.test x.toTree = .ok ())
    (hmake : ∀ found : Fields, (∀ name d, fields.lookup name = some d →
      found.given.lookup name = d.map Datum.toTree) → make found = .ok x) :
    (structureFields d title rules (Datum.record members).toTree >>= make) = .ok x := by
  refine structure_eq_ok hnames hdistinct (names_present fields) h (fun rule hrule x hx => ?_)
    fun found hgiven => hmake found fun name d hlookup => ?_
  · rw [lookup_present hdistinct, Option.join_eq_some_iff] at hx
    exact htest rule hrule x hx
  · have hname : name ∈ fields.map Prod.fst :=
      List.mem_map_of_mem ((lookup_eq_some_iff hdistinct).mp hlookup)
    rw [hgiven name hname, lookup_present hdistinct, hlookup]
    rfl

theorem test_field {α : Type} {name : String} {decode : Tree → Decoded α} {t : Tree} {x : α}
    (h : decode t = .ok x) : (field name decode).test t = .ok () := by
  simp [field, h, Except.map]

theorem required_of_lookup {α : Type} {fields : Fields} {name : String}
    {decode : Tree → Decoded α} {x : Datum} {value : α}
    (hgiven : fields.given.lookup name = (some x).map Datum.toTree)
    (h : decode x.toTree = .ok value) : fields.required name decode = .ok value := by
  rw [Fields.required, hgiven]
  exact h

theorem withDefault_of_given {α : Type} {fields : Fields} {name : String} {default value : α}
    {decode : Tree → Decoded α} {x : Datum}
    (hgiven : fields.given.lookup name = (some x).map Datum.toTree)
    (h : decode x.toTree = .ok value) : fields.withDefault name default decode = .ok value := by
  rw [Fields.withDefault, hgiven]
  exact h

theorem withDefault_of_lookup {α : Type} {fields : Fields} {name : String} {default value : α}
    {decode : Tree → Decoded α} {given : Option Datum}
    (hgiven : fields.given.lookup name = given.map Datum.toTree)
    (hsome : ∀ x, given = some x → decode x.toTree = .ok value)
    (hnone : given = none → value = default) :
    fields.withDefault name default decode = .ok value := by
  rw [Fields.withDefault, hgiven]
  cases given with
  | none => rw [hnone rfl]; rfl
  | some x => exact hsome x rfl

end

end Decode

end PluginHost
