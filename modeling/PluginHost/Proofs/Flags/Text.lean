import Mathlib.Data.List.Basic
import Mathlib.Data.List.TakeWhile
import PluginHost.Flags
import PluginHost.Proofs.Number.Digits
import PluginHost.Proofs.Text.Pieces

/-! # Texts of flags

The text of a set of flags names flags whose bits are all set and gives the other bits in
hexadecimal, so that it is read as the same bits again. -/

namespace PluginHost

namespace Text

/-! ## Cutting and trimming -/

/-- A text without blanks and without the separator. -/
structure Snug (separator : Char) (cs : List Char) : Prop where
  nonempty : cs ≠ []
  unblank : ∀ c ∈ cs, isBlank c = false
  whole : separator ∉ cs

theorem trimEnd_append {cs after : List Char} (hcs : ∀ c ∈ cs, isBlank c = false)
    (hafter : ∀ c ∈ after, isBlank c = true) : trimEnd (cs ++ after) = cs := by
  have hends : BeginsWithout isBlank cs.reverse := fun c hc =>
    hcs c (List.mem_reverse.mp (List.mem_of_mem_head? hc))
  rw [trimEnd, List.reverse_append,
    dropWhile_append (fun c hc => hafter c (List.mem_reverse.mp hc)) hends, List.reverse_reverse]

theorem trim_padded {before cs after : List Char} (hbefore : ∀ c ∈ before, isBlank c = true)
    (hne : cs ≠ []) (hcs : ∀ c ∈ cs, isBlank c = false) (hafter : ∀ c ∈ after, isBlank c = true) :
    trim (before ++ (cs ++ after)) = cs := by
  obtain ⟨c, more, rfl⟩ := List.exists_cons_of_ne_nil hne
  have hstarts : BeginsWithout isBlank (c :: more ++ after) := by
    rintro _ ⟨⟩
    exact hcs c (List.mem_cons_self ..)
  rw [trim, trimStart, dropWhile_append hbefore hstarts, trimEnd_append hcs hafter]

theorem not_mem_of_blank {separator : Char} (h : isBlank separator = false) {before : List Char}
    (hbefore : ∀ c ∈ before, isBlank c = true) : separator ∉ before := fun hmem =>
  absurd (hbefore separator hmem) (by simp [h])

/-- Texts with spaces and a separator between them are found again by cutting and trimming. -/
theorem map_trim_pieces {separator : Char} (hseparator : isBlank separator = false)
    {first : List Char} {more : List (List Char)} (hfirst : Snug separator first)
    (hmore : ∀ cs ∈ more, Snug separator cs) {before : List Char}
    (hbefore : ∀ c ∈ before, isBlank c = true) :
    (pieces separator (before ++ [' ', separator, ' '].intercalate (first :: more))).map trim =
      first :: more := by
  have hspace : ∀ c ∈ [' '], isBlank c = true := List.all_eq_true.mp (by decide)
  induction more generalizing first before with
  | nil =>
      have hwhole : separator ∉ before ++ (first ++ []) := by
        simp [not_mem_of_blank hseparator hbefore, hfirst.whole]
      have htrim := trim_padded hbefore hfirst.nonempty hfirst.unblank (List.forall_mem_nil _)
      rw [List.append_nil] at hwhole htrim
      simp [List.intercalate, pieces_of_not_mem hwhole, htrim]
  | cons second more ih =>
      have hwhole : separator ∉ before ++ (first ++ [' ']) := by
        simp [not_mem_of_blank hseparator hbefore, hfirst.whole,
          not_mem_of_blank hseparator hspace]
      have htrim := trim_padded hbefore hfirst.nonempty hfirst.unblank hspace
      have hrest := ih (hmore second (List.mem_cons_self ..))
        (fun cs hcs => hmore cs (List.mem_cons_of_mem _ hcs)) hspace
      have hjoined : before ++ [' ', separator, ' '].intercalate (first :: second :: more) =
          before ++ (first ++ [' ']) ++
            separator :: ([' '] ++ [' ', separator, ' '].intercalate (second :: more)) := by
        simp [List.intercalate_cons_cons]
      rw [hjoined, pieces_append hwhole, List.map_cons, htrim, hrest]

theorem mem_intercalate_cons {c : Char} {cs : List Char} (separator : List Char) (h : c ∈ cs)
    (more : List (List Char)) : c ∈ separator.intercalate (cs :: more) := by
  cases more with
  | nil => simpa [List.intercalate] using h
  | cons other more =>
      rw [List.intercalate_cons_cons]
      simp [h]

theorem blank_of_trim_eq_nil {cs : List Char} (h : trim cs = []) : ∀ c ∈ cs, isBlank c = true := by
  have hblank : ∀ c ∈ trimStart cs, isBlank c = true := by
    rw [trim, trimEnd, List.reverse_eq_nil_iff, List.dropWhile_eq_nil_iff] at h
    exact fun c hc => h c (List.mem_reverse.mpr hc)
  have hstart : trimStart cs = [] := by
    cases hcs : trimStart cs with
    | nil => rfl
    | cons c more =>
        have hhead := List.head?_dropWhile_not isBlank cs
        rw [trimStart] at hcs
        rw [hcs] at hhead
        exact absurd (hblank c (by simp [trimStart, hcs])) (by simpa using hhead)
  exact List.dropWhile_eq_nil_iff.mp hstart

end Text

namespace FlagNames

/-! ## Bits -/

theorem or_and_self (bits more : UInt32) : bits ||| bits &&& more = bits := by
  refine UInt32.toBitVec_inj.mp (BitVec.eq_of_getElem_eq fun i hi => ?_)
  simp only [UInt32.toBitVec_or, UInt32.toBitVec_and, BitVec.getElem_or, BitVec.getElem_and]
  cases bits.toBitVec[i] <;> rfl

theorem and_not_or (bits taken : UInt32) : bits &&& ~~~taken ||| taken = bits ||| taken := by
  refine UInt32.toBitVec_inj.mp (BitVec.eq_of_getElem_eq fun i hi => ?_)
  simp only [UInt32.toBitVec_or, UInt32.toBitVec_and, UInt32.toBitVec_not, BitVec.getElem_or,
    BitVec.getElem_and, BitVec.getElem_not]
  cases bits.toBitVec[i] <;> cases taken.toBitVec[i] <;> rfl

/-- The bits of some flags and further bits. -/
def joined (flags : FlagNames) (bits : UInt32) : UInt32 :=
  flags.foldl (fun bits flag => bits ||| flag.2) bits

theorem joined_or (flags : FlagNames) (bits more : UInt32) :
    joined flags (bits ||| more) = joined flags bits ||| more := by
  induction flags generalizing bits with
  | nil => rfl
  | cons flag rest ih =>
      have hswap : bits ||| more ||| flag.2 = bits ||| flag.2 ||| more := by
        rw [UInt32.or_assoc, UInt32.or_comm more, ← UInt32.or_assoc]
      simp only [joined, List.foldl_cons] at ih ⊢
      rw [hswap, ih]

theorem joined_of_subset {flags : FlagNames} {bits : UInt32}
    (h : ∀ flag ∈ flags, bits &&& flag.2 = flag.2) : joined flags bits = bits := by
  induction flags with
  | nil => rfl
  | cons flag rest ih =>
      have hflag : bits ||| flag.2 = bits := by
        rw [← h flag (List.mem_cons_self ..), or_and_self]
      rw [joined, List.foldl_cons, hflag]
      exact ih fun flag hflag => h flag (List.mem_cons_of_mem _ hflag)

/-- The flags that are taken are among the known ones and have only bits that are set. What they
take is not left. -/
theorem exists_split (source rest : UInt32) (names : FlagNames) :
    ∃ flags left, split source names rest = (flags.map Prod.fst, left) ∧
      (∀ flag ∈ flags, flag ∈ names ∧ source &&& flag.2 = flag.2) ∧
      joined flags left = joined flags rest := by
  induction names generalizing rest with
  | nil => exact ⟨[], rest, rfl, List.forall_mem_nil _, rfl⟩
  | cons flag more ih =>
      obtain ⟨name, bits⟩ := flag
      unfold split
      split
      next htaken =>
        obtain ⟨flags, left, hsplit, hflags, hjoined⟩ := ih (rest &&& ~~~bits)
        refine ⟨(name, bits) :: flags, left, by rw [hsplit]; rfl, ?_, ?_⟩
        · intro flag hflag
          rcases List.mem_cons.mp hflag with rfl | hflag
          · exact ⟨List.mem_cons_self .., htaken.1⟩
          · exact (hflags flag hflag).imp_left (List.mem_cons_of_mem _)
        · have hcons (x : UInt32) : joined ((name, bits) :: flags) x = joined flags x ||| bits := by
            rw [← joined_or]
            rfl
          rw [hcons, hjoined, ← joined_or, and_not_or]
          rfl
      next =>
        obtain ⟨flags, left, hsplit, hflags, hjoined⟩ := ih rest
        exact ⟨flags, left, hsplit, fun flag hflag =>
          (hflags flag hflag).imp_left (List.mem_cons_of_mem _), hjoined⟩

/-! ## Reading -/

theorem ofPiece?_hexText (names : FlagNames) (bits : UInt32) :
    names.ofPiece? (hexText bits).toList = some bits := by
  have hlimit : bits.toNat ≤ twoTo 32 - 1 := by
    have := bits.toNat_lt
    rw [twoTo_32]
    omega
  have htext : (hexText bits).toList = '0' :: 'x' :: Text.hexDigits bits.toNat := by
    simp [hexText]
  simp [htext, ofPiece?, Number.readNat_hexDigits hlimit]

theorem snug_hexText (bits : UInt32) : Text.Snug '|' (hexText bits).toList := by
  have hdigit : ∀ d < 16, Text.isBlank d.digitChar = false ∧ '|' ≠ d.digitChar := by
    decide
  have hchar : ∀ c ∈ (hexText bits).toList, Text.isBlank c = false ∧ '|' ≠ c := by
    intro c hc
    simp only [hexText, String.toList_append, String.toList_ofList, List.mem_append] at hc
    rcases hc with hc | hc
    · rcases List.mem_pair.mp (hc : c ∈ ['0', 'x']) with rfl | rfl <;> decide
    · obtain ⟨d, hd, rfl⟩ := Number.exists_digitChar_of_mem_hexDigits hc
      exact hdigit d hd
  exact ⟨by simp [hexText], fun c hc => (hchar c hc).1, fun hmem => (hchar _ hmem).2 rfl⟩

theorem mapM_map_eq_some {α β γ : Type} {f : β → Option γ} {g : α → β} {h : α → γ} {xs : List α}
    (hfound : ∀ x ∈ xs, f (g x) = some (h x)) : (xs.map g).mapM f = some (xs.map h) := by
  induction xs with
  | nil => rfl
  | cons x rest ih =>
      simp [hfound x (List.mem_cons_self ..), ih fun y hy => hfound y (List.mem_cons_of_mem _ hy)]

/-- What stands between two bars and is read as some bits. -/
structure Piece (names : FlagNames) (piece : String × UInt32) : Prop where
  snug : Text.Snug '|' piece.1.toList
  found : names.ofPiece? piece.1.toList = some piece.2

theorem ofText?_intercalate {names pieces : FlagNames} (h : ∀ piece ∈ pieces, names.Piece piece) :
    names.ofText? (String.intercalate " | " (pieces.map Prod.fst)) = some (joined pieces 0) := by
  rw [ofText?, String.toList_intercalate, List.map_map]
  cases pieces with
  | nil => rfl
  | cons first more =>
      have hfirst := (h first (List.mem_cons_self ..)).snug
      have hmore : ∀ cs ∈ more.map (String.toList ∘ Prod.fst), Text.Snug '|' cs := by
        intro cs hcs
        obtain ⟨piece, hpiece, rfl⟩ := List.mem_map.mp hcs
        exact (h piece (List.mem_cons_of_mem _ hpiece)).snug
      have htrim : (Text.pieces '|' (" | ".toList.intercalate
          ((first :: more).map (String.toList ∘ Prod.fst)))).map Text.trim =
            (first :: more).map (String.toList ∘ Prod.fst) :=
        Text.map_trim_pieces (by decide) hfirst hmore (List.forall_mem_nil _)
      have hfilled : ¬(Text.trim (" | ".toList.intercalate
          ((first :: more).map (String.toList ∘ Prod.fst)))).isEmpty := by
        intro hempty
        obtain ⟨c, rest, hcons⟩ := List.exists_cons_of_ne_nil hfirst.nonempty
        have hc : c ∈ first.1.toList := by simp [hcons]
        have hblank := Text.blank_of_trim_eq_nil (List.isEmpty_iff.mp hempty) c
          (Text.mem_intercalate_cons _ hc _)
        rw [hfirst.unblank c hc] at hblank
        cases hblank
      have hwords : (Text.pieces '|' (" | ".toList.intercalate
          ((first :: more).map (String.toList ∘ Prod.fst)))).mapM
            (fun piece => names.ofPiece? (Text.trim piece)) = some ((first :: more).map Prod.snd) :=
        calc
          _ = ((Text.pieces '|' _).map Text.trim).mapM names.ofPiece? := List.mapM_map.symm
          _ = ((first :: more).map (String.toList ∘ Prod.fst)).mapM names.ofPiece? := by rw [htrim]
          _ = _ := mapM_map_eq_some fun piece hpiece => (h piece hpiece).found
      rw [if_neg hfilled, hwords, Option.map_some, List.foldl_map]
      rfl

/-- Names that are told apart from each other and from a word in a text of flags. -/
def Legible (names : FlagNames) : Prop :=
  ∀ flag ∈ names, names.Piece flag

/-- Flags are read from their text with exactly the bits that are set. -/
theorem Legible.ofText?_text {names : FlagNames} (h : names.Legible) (bits : UInt32) :
    names.ofText? (names.text bits) = some bits := by
  obtain ⟨flags, left, hsplit, hflags, hjoined⟩ := exists_split bits bits names
  rw [joined_of_subset fun flag hflag => (hflags flag hflag).2] at hjoined
  have hknown : ∀ flag ∈ flags, names.Piece flag := fun flag hflag => h flag (hflags flag hflag).1
  simp only [text, hsplit]
  split
  next hzero =>
    rw [List.append_nil, ofText?_intercalate hknown, ← hzero, hjoined]
  next =>
    -- The bits without a name are one more piece, in digits.
    have hpieces : ∀ piece ∈ flags ++ [(hexText left, left)], names.Piece piece := by
      intro piece hpiece
      rcases List.mem_append.mp hpiece with hflag | hrest
      · exact hknown piece hflag
      · rw [List.mem_singleton.mp hrest]
        exact ⟨snug_hexText left, ofPiece?_hexText names left⟩
    have hbits : joined (flags ++ [(hexText left, left)]) 0 = bits := by
      rw [joined, List.foldl_append]
      show joined flags 0 ||| left = bits
      rw [← joined_or, UInt32.zero_or, hjoined]
    rw [← hbits, ← ofText?_intercalate hpieces, List.map_append]
    rfl

end FlagNames

namespace ServiceFlags

theorem legible_known : known.Legible := by
  have hsnug {cs : List Char} (hcs : cs ≠ [])
      (hall : cs.all (fun c => !Text.isBlank c && c != '|') = true) : Text.Snug '|' cs := by
    have hchars := List.all_eq_true.mp hall
    refine ⟨hcs, fun c hc => ?_, fun hmem => ?_⟩
    · simpa using (Bool.and_eq_true_iff.mp (hchars c hc)).1
    · simpa using (Bool.and_eq_true_iff.mp (hchars '|' hmem)).2
  intro flag hflag
  rcases List.mem_pair.mp hflag with rfl | rfl
  · exact ⟨hsnug (by decide) (by decide), by decide⟩
  · exact ⟨hsnug (by decide) (by decide), by decide⟩

theorem ofText?_text (f : ServiceFlags) : ofText? f.text = some f := by
  simp [ofText?, text, legible_known.ofText?_text]

end ServiceFlags

end PluginHost
