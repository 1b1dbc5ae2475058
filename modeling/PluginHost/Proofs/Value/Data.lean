import Mathlib.Data.List.Permutation
import PluginHost.Proofs.Value.Contents

/-! # Values in data files

A value is read back as it was written, whichever of its type and its content stands first. Nothing
is read under another type than the one that the text names, and an integer is read as itself or
not at all. -/

namespace PluginHost.CallValue

/-! ## Members in either order -/

/-- What one member adds to what is known of a value. -/
inductive Partial.Learns (d : Dialect) (name : String) (t : Tree) : Partial → Partial → Prop where
  | type {tag} (hname : name = "type") (h : TypeTag.ofTree d t = .ok tag) :
      Learns d name t .nothing (.typed tag)
  | typeAfter {content tag v} (hname : name = "type") (h : TypeTag.ofTree d t = .ok tag)
      (hcontent : ofContent d tag content = .ok v) : Learns d name t (.kept content) (.complete v)
  | content {tag v} (hname : name = "value") (h : ofContent d tag t = .ok v) :
      Learns d name t (.typed tag) (.complete v)
  | contentBefore (hname : name = "value") (h : t.readWhole keptDepth = .ok ()) :
      Learns d name t .nothing (.kept t)
  | nothing {p} (htype : name ≠ "type") (hvalue : name ≠ "value") (h : t.skip = .ok ()) :
      Learns d name t p p

theorem ofRead_eq_ok {α : Type} {result : Except ReadFault α} {x : α} :
    Decoded.ofRead result = .ok x ↔ result = .ok x := by
  cases result <;> simp [Decoded.ofRead, Except.mapError]

theorem Partial.read_eq_ok {d : Dialect} {p next : Partial} {name : String} {t : Tree} :
    p.read d name t = .ok next ↔ Learns d name t p next := by
  constructor
  · intro h
    unfold read at h
    split at h
    next hname =>
      subst hname
      split at h
      next =>
        obtain ⟨tag, htag, hnext⟩ := bind_eq_ok.mp h
        cases hnext
        exact .type rfl htag
      next kept =>
        obtain ⟨tag, htag, hrest⟩ := bind_eq_ok.mp h
        obtain ⟨v, hv, hnext⟩ := bind_eq_ok.mp hrest
        cases hnext
        exact .typeAfter rfl htag hv
      next => cases h
    next htype =>
      split at h
      next hname =>
        subst hname
        split at h
        next =>
          obtain ⟨_, hread, hnext⟩ := bind_eq_ok.mp h
          cases hnext
          exact .contentBefore rfl (ofRead_eq_ok.mp hread)
        next tag =>
          obtain ⟨v, hv, hnext⟩ := bind_eq_ok.mp h
          cases hnext
          exact .content rfl hv
        next => cases h
      next hvalue =>
        obtain ⟨_, hskip, hnext⟩ := bind_eq_ok.mp h
        cases hnext
        exact .nothing htype hvalue (ofRead_eq_ok.mp hskip)
  · intro h
    unfold read
    cases h with
    | type hname h =>
        subst hname
        exact bind_eq_ok.mpr ⟨_, h, rfl⟩
    | typeAfter hname h hcontent =>
        subst hname
        exact bind_eq_ok.mpr ⟨_, h, bind_eq_ok.mpr ⟨_, hcontent, rfl⟩⟩
    | content hname h =>
        subst hname
        exact bind_eq_ok.mpr ⟨_, h, rfl⟩
    | contentBefore hname h =>
        subst hname
        exact bind_eq_ok.mpr ⟨_, ofRead_eq_ok.mpr h, rfl⟩
    | nothing htype hvalue h =>
        rw [if_neg htype, if_neg hvalue]
        exact bind_eq_ok.mpr ⟨_, ofRead_eq_ok.mpr h, rfl⟩

theorem Partial.readAll_cons_eq_ok {d : Dialect} {p last : Partial} {name : String} {t : Tree}
    {rest : List (MemberName × Tree)} :
    p.readAll d ((.text name, t) :: rest) = .ok last ↔
      ∃ next, Learns d name t p next ∧ next.readAll d rest = .ok last := by
  simp only [readAll, bind_eq_ok, read_eq_ok]

theorem ofTree_record_eq_ok {d : Dialect} {ms : List (MemberName × Tree)}
    {ending : Option ReadFault} {v : CallValue} :
    ofTree d (.record ms ending) = .ok v ↔
      Partial.nothing.readAll d ms = .ok (.complete v) ∧ ending = none := by
  constructor
  · intro h
    obtain ⟨p, hp, hrest⟩ := bind_eq_ok.mp h
    obtain ⟨_, hending, hv⟩ := bind_eq_ok.mp hrest
    cases p with
    | complete w =>
        cases hv
        cases ending with
        | none => exact ⟨hp, rfl⟩
        | some fault => cases hending
    | nothing => cases hv
    | typed => cases hv
    | kept => cases hv
  · rintro ⟨hp, rfl⟩
    exact bind_eq_ok.mpr ⟨_, hp, rfl⟩

/-! ## The type that is named -/

/-- The type that is known. -/
def Partial.type? : Partial → Option TypeTag
  | .nothing => none
  | .typed tag => some tag
  | .kept _ => none
  | .complete v => some v.tag

theorem Partial.Learns.type?_eq_some_iff {d : Dialect} {p next : Partial} {name : String} {t : Tree}
    (h : Learns d name t p next) {tag : TypeTag} :
    next.type? = some tag ↔ p.type? = some tag ∨ name = "type" ∧ TypeTag.NamedBy t tag := by
  cases h with
  | type hname h =>
      have hnamed := TypeTag.namedBy_of_ofTree h
      simp only [type?, hname, Option.some.injEq, reduceCtorEq, false_or, true_and]
      exact ⟨fun htag => htag ▸ hnamed, fun hother => (hnamed.unique hother).symm⟩
  | typeAfter hname h hcontent =>
      have hnamed := TypeTag.namedBy_of_ofTree h
      simp only [type?, tag_of_ofContent hcontent, hname, Option.some.injEq, reduceCtorEq, false_or,
        true_and]
      exact ⟨fun htag => htag ▸ hnamed, fun hother => (hnamed.unique hother).symm⟩
  | content hname h => simp [type?, tag_of_ofContent h, hname]
  | contentBefore hname => simp [type?, hname]
  | nothing htype => simp [htype]

theorem Partial.type?_of_readAll {d : Dialect} {p : Partial} {ms : List (MemberName × Tree)}
    {v : CallValue} (h : p.readAll d ms = .ok (.complete v)) {tag : TypeTag} :
    (p.type? = some tag ∨ ∃ t, (.text "type", t) ∈ ms ∧ TypeTag.NamedBy t tag) ↔ v.tag = tag := by
  induction ms generalizing p with
  | nil =>
      cases h
      simp [type?]
  | cons m rest ih =>
      obtain ⟨name, t⟩ := m
      cases name with
      | broken reading skipping => cases h
      | text name =>
          obtain ⟨next, hlearns, hrest⟩ := readAll_cons_eq_ok.mp h
          rw [← ih hrest, hlearns.type?_eq_some_iff, or_assoc]
          refine or_congr_right ?_
          simp only [List.mem_cons, Prod.mk.injEq, MemberName.text.injEq]
          constructor
          · rintro ⟨u, ⟨rfl, rfl⟩ | hmem, hu⟩
            · exact .inl ⟨rfl, hu⟩
            · exact .inr ⟨u, hmem, hu⟩
          · rintro (⟨rfl, ht⟩ | ⟨u, hmem, hu⟩)
            · exact ⟨t, .inl ⟨rfl, rfl⟩, ht⟩
            · exact ⟨u, .inr hmem, hu⟩

/-- The type that data names for a value: that of a member of this name, or the first element. -/
inductive Names : Tree → TypeTag → Prop where
  | record {ms ending t tag} (hmem : (.text "type", t) ∈ ms) (h : TypeTag.NamedBy t tag) :
      Names (.record ms ending) tag
  | list {more ending tag} : Names (.list (.text (TypeTag.recordName tag) :: more) ending) tag

theorem ofTree_list_eq_ok {d : Dialect} {items : List Tree} {ending : Option ReadFault}
    {v : CallValue} (h : ofTree d (.list items ending) = .ok v) :
    ∃ first more, items = first :: more ∧
      Decode.identifier d TypeTag.ofRecordName? TypeTag.recordNames first = .ok v.tag := by
  cases items with
  | nil =>
      obtain ⟨_, _, hv⟩ := bind_eq_ok.mp h
      cases hv
  | cons first more =>
      obtain ⟨named, hnamed, hrest⟩ := bind_eq_ok.mp h
      cases more with
      | nil =>
          obtain ⟨_, _, hv⟩ := bind_eq_ok.mp hrest
          cases hv
      | cons second surplus =>
          obtain ⟨w, hw, hrest⟩ := bind_eq_ok.mp hrest
          split at hrest
          next =>
            obtain ⟨_, _, hv⟩ := bind_eq_ok.mp hrest
            cases hv
            exact ⟨first, _, rfl, tag_of_ofContent hw ▸ hnamed⟩
          next => cases hrest

theorem eq_text_of_identifier {d : Dialect} {t : Tree} {tag : TypeTag}
    (h : Decode.identifier d TypeTag.ofRecordName? TypeTag.recordNames t = .ok tag) :
    t = .text tag.recordName := by
  unfold Decode.identifier at h
  split at h
  next name => rw [TypeTag.ofRecordName?_eq_some_iff.mp (Decode.variantName_eq_ok h)]
  next => exact absurd h (Decode.mismatch_ne_ok _ _ _ _)

theorem names_iff_of_ofTree {d : Dialect} {t : Tree} {v : CallValue} (h : ofTree d t = .ok v)
    {tag : TypeTag} : Names t tag ↔ v.tag = tag := by
  cases t with
  | record ms ending =>
      rw [← Partial.type?_of_readAll (ofTree_record_eq_ok.mp h).1]
      constructor
      · rintro ⟨hmem, hnamed⟩
        exact .inr ⟨_, hmem, hnamed⟩
      · rintro (hnothing | ⟨t, hmem, hnamed⟩)
        · cases hnothing
        · exact .record hmem hnamed
  | list items ending =>
      obtain ⟨first, more, rfl, hnamed⟩ := ofTree_list_eq_ok h
      rw [eq_text_of_identifier hnamed]
      constructor
      · generalize hname : v.tag.recordName = name
        rintro ⟨⟩
        exact TypeTag.recordName_injective hname
      · rintro rfl
        exact .list
  | null => exact absurd h (Decode.mismatch_ne_ok _ _ _ _)
  | bool => exact absurd h (Decode.mismatch_ne_ok _ _ _ _)
  | integer => exact absurd h (Decode.mismatch_ne_ok _ _ _ _)
  | float => exact absurd h (Decode.mismatch_ne_ok _ _ _ _)
  | text => exact absurd h (Decode.mismatch_ne_ok _ _ _ _)
  | absent => exact absurd h (Decode.mismatch_ne_ok _ _ _ _)
  | broken => exact absurd h (Decode.mismatch_ne_ok _ _ _ _)

/-! ## Contents in either order -/

/-- A text that gives a content under a type, in a record of both, beside other members or alone, or
in a list of the two. -/
inductive Gives : Json.Value → TypeTag → Json.Value → Prop where
  | record {ms tag content} (named : Json.Value) (hnamed : TypeTag.NamedBy named.tree tag)
      (h : KnownMembers ["type", "value"] [("type", named), ("value", content)] ms) :
      Gives (.record ms) tag content
  | list {tag content} : Gives (.list [.text (TypeTag.recordName tag), content]) tag content

theorem Partial.readAll_known (d : Dialect) (p : Partial) (ms : List (String × Json.Value)) :
    p.readAll d (Json.Value.memberTrees ms) =
      p.readAll d (Json.Value.memberTrees (ms.filter fun m => ["type", "value"].contains m.1)) := by
  induction ms generalizing p with
  | nil => rfl
  | cons m rest ih =>
      obtain ⟨name, x⟩ := m
      rw [List.filter_cons]
      split
      next =>
        simp only [Json.Value.memberTrees, readAll, ih]
      next hunknown =>
        have hlearns : Learns d name x.tree p p := by
          simp only [List.contains_eq_mem, List.mem_cons, List.not_mem_nil, or_false,
            decide_eq_true_eq, not_or] at hunknown
          exact .nothing hunknown.1 hunknown.2 (Json.skip_tree x)
        rw [Json.Value.memberTrees, readAll, read_eq_ok.mpr hlearns, ← ih]
        rfl

section

variable {d : Dialect} {named content : Tree} {tag : TypeTag} {v : CallValue}

theorem Partial.readAll_type_first (h : TypeTag.ofTree d named = .ok tag) :
    nothing.readAll d [(.text "type", named), (.text "value", content)] = .ok (.complete v) ↔
      ofContent d tag content = .ok v := by
  constructor
  · intro hread
    obtain ⟨known, hknown, hread⟩ := readAll_cons_eq_ok.mp hread
    obtain ⟨_, hlast, ⟨⟩⟩ := readAll_cons_eq_ok.mp hread
    cases hknown with
    | type _ hnamed =>
        cases h.symm.trans hnamed
        cases hlast with
        | content _ hcontent => exact hcontent
    | contentBefore hname => exact absurd hname (by decide)
    | nothing hname => exact absurd rfl hname
  · intro hcontent
    exact readAll_cons_eq_ok.mpr ⟨_, .type rfl h,
      readAll_cons_eq_ok.mpr ⟨_, .content rfl hcontent, rfl⟩⟩

/-- A content that stands before its type is kept whole until the type is known. -/
theorem Partial.readAll_value_first (h : TypeTag.ofTree d named = .ok tag) :
    nothing.readAll d [(.text "value", content), (.text "type", named)] = .ok (.complete v) ↔
      ofContent d tag content = .ok v := by
  constructor
  · intro hread
    obtain ⟨known, hknown, hread⟩ := readAll_cons_eq_ok.mp hread
    obtain ⟨_, hlast, ⟨⟩⟩ := readAll_cons_eq_ok.mp hread
    cases hknown with
    | type hname => exact absurd hname (by decide)
    | contentBefore =>
        cases hlast with
        | typeAfter _ hnamed hcontent =>
            cases h.symm.trans hnamed
            exact hcontent
    | nothing _ hname => exact absurd rfl hname
  · intro hcontent
    exact readAll_cons_eq_ok.mpr ⟨_, .contentBefore rfl (readWhole_of_ofContent hcontent),
      readAll_cons_eq_ok.mpr ⟨_, .typeAfter rfl h hcontent, rfl⟩⟩

theorem ofTree_pair_eq_ok :
    ofTree d (.list [.text tag.recordName, content] none) = .ok v ↔
      ofContent d tag content = .ok v := by
  have hname : Decode.identifier d TypeTag.ofRecordName? TypeTag.recordNames
      (.text tag.recordName) = .ok tag := by
    simp [Decode.identifier, Decode.variantName, TypeTag.ofRecordName?_eq_some_iff.mpr rfl]
  rw [ofTree, hname]
  constructor
  · intro hread
    obtain ⟨_, ⟨⟩, hread⟩ := bind_eq_ok.mp hread
    obtain ⟨w, hw, hlast⟩ := bind_eq_ok.mp hread
    cases hlast
    exact hw
  · intro hcontent
    exact bind_eq_ok.mpr ⟨tag, rfl, bind_eq_ok.mpr ⟨v, hcontent, rfl⟩⟩

end

/-- A value is read as its content is under its type, whichever of the two stands first. -/
theorem Gives.ofTree_eq_ok_iff {doc content : Json.Value} {tag : TypeTag}
    (h : Gives doc tag content) {d : Dialect} {v : CallValue} :
    ofTree d doc.tree = .ok v ↔ ofContent d tag content.tree = .ok v := by
  cases h with
  | record named hnamed h =>
      have htype := hnamed.ofTree d
      rw [Json.Value.tree, ofTree_record_eq_ok, Partial.readAll_known]
      simp only [and_true]
      rcases List.perm_pair.mp h with hms | hms
      · rw [hms]
        exact Partial.readAll_type_first htype
      · rw [hms]
        exact Partial.readAll_value_first htype
  | list => exact ofTree_pair_eq_ok

/-- The data of a value gives its content under its type. -/
theorem decode_toDatum {v : CallValue} (h : v.tag ≠ .double) :
    Json.decode ofTree (Json.text v.toDatum) = .ok v ∧
      Json.decode ofTree (Json.prettyText v.toDatum) = .ok v := by
  have hexact : v.toDatum.Exact := by
    refine .record fun m hm => ?_
    rcases List.mem_pair.mp hm with rfl | rfl
    · exact .text _
    · exact exact_content h
  have hvalue : ofTree Json.dialect v.toDatum.toTree = .ok v := by
    refine ofTree_record_eq_ok.mpr ⟨?_, rfl⟩
    exact Partial.readAll_cons_eq_ok.mpr ⟨_, .type rfl ((TypeTag.NamedBy.text v.tag).ofTree _),
      Partial.readAll_cons_eq_ok.mpr ⟨_, .content rfl (ofContent_content _ v), rfl⟩⟩
  obtain ⟨hline, hlines⟩ := Json.decode_text hexact ofTree
  exact ⟨hline.trans hvalue, hlines.trans hvalue⟩

/-- Every value but a double is read back as it was written; a value that is read has the type that
its text names and no other; and an integer under an integer type is read as itself if it is in the
range of the type, and else not at all. -/
theorem data_faithful :
    (∀ v : CallValue, v.tag ≠ .double →
      Json.decode ofTree (Json.text v.toDatum) = .ok v ∧
        Json.decode ofTree (Json.prettyText v.toDatum) = .ok v) ∧
    (∀ text v, Json.decode ofTree text = .ok v →
      ∀ tag, Names (Json.readDocument text).root tag ↔ v.holds tag = true) ∧
    (∀ text doc tag least greatest literal value, Json.Says text doc →
      Gives doc tag (.number literal) → tag.range? = some (least, greatest) →
      literal.integer? = some value → literal.Plain →
      ((∃ v, Json.decode ofTree text = .ok v) ↔ least ≤ value ∧ value ≤ greatest) ∧
      ∀ v, Json.decode ofTree text = .ok v → v.holds tag = true ∧ v.integer? = some value) := by
  refine ⟨fun v hv => decode_toDatum hv, ?_, ?_⟩
  · intro text v h tag
    rw [names_iff_of_ofTree (Json.root_of_decode h), holds, beq_iff_eq]
  · intro text doc tag least greatest literal value hsaid hgives hrange hvalue hplain
    have hread (v : CallValue) : Json.decode ofTree text = .ok v ↔
        (least ≤ value ∧ value ≤ greatest) ∧ v.tag = tag ∧ v.integer? = some value := by
      rw [hsaid.decode, hgives.ofTree_eq_ok_iff, ofContent_eq_ok_iff hrange]
      obtain ⟨hlow, hhigh⟩ := range?_within hrange
      simp only [Json.Value.tree, Json.NumberText.tree_eq_integer_iff hvalue hplain]
      constructor
      · rintro ⟨_, ⟨rfl, _⟩, hin, htag, hn⟩
        exact ⟨hin, htag, hn⟩
      · rintro ⟨hin, htag, hn⟩
        exact ⟨value, ⟨rfl, by omega, by omega⟩, hin, htag, hn⟩
    refine ⟨⟨fun ⟨v, hv⟩ => ((hread v).mp hv).1, fun hin => ?_⟩, fun v hv => ?_⟩
    · obtain ⟨v, _, hv⟩ := exists_ofContent_integer (d := Json.dialect) hrange hin.1 hin.2
      exact ⟨v, (hread v).mpr ⟨hin, hv⟩⟩
    · rw [holds, beq_iff_eq]
      exact ((hread v).mp hv).2

/-- One more than the greatest value of a type, before the type. -/
theorem data_faithful_beyond_type :
    Json.decode ofTree (Json.text (CallValue.string "\x22\\\n").toDatum) =
        .ok (.string "\x22\\\n") ∧
      Names (Json.readDocument (Json.text (CallValue.uint 7).toDatum)).root .uint ∧
      ¬∃ v, Json.decode ofTree
        "\x7b\x22value\x22:4294967296,\x22type\x22:\x22u-int\x22\x7d" = .ok v := by
  obtain ⟨hround, hnames, hintegers⟩ := data_faithful
  refine ⟨(hround (.string "\x22\\\n") nofun).1, ?_, ?_⟩
  · exact (hnames _ (.uint 7) (hround (.uint 7) nofun).1 .uint).mpr rfl
  · have hspelled (s : String) := Json.spellsText_flatMap_writeChar s.toList
    have hsaid := Json.Says.mk Json.blanks_nil (.record Json.blanks_nil
      (.mk (hspelled "value") Json.blanks_nil Json.blanks_nil
        (.number (Json.spellsNumber_intDigits 4294967296)))
      (.cons Json.blanks_nil Json.blanks_nil
        (.mk (hspelled "type") Json.blanks_nil Json.blanks_nil (.text (hspelled "u-int")))
        (.nil Json.blanks_nil))) Json.blanks_nil
    have hgives : Gives (.record [("value", .number (Json.integerText 4294967296)),
        ("type", .text "u-int")]) .uint (.number (Json.integerText 4294967296)) :=
      .record (.text "u-int") (.text .uint) (knownMembers_of_perm (.swap ..) (by decide))
    have hin := (hintegers _ _ _ _ _ _ _ hsaid hgives rfl (Json.integer?_integerText _)
      (Json.plain_integerText _)).1
    intro haccepted
    exact absurd (hin.mp haccepted).2 (by decide)

end PluginHost.CallValue
