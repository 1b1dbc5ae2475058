import Mathlib.Data.List.Pairwise
import Mathlib.Data.List.Sort
import PluginHost.Proofs.Files.Entries
import PluginHost.Proofs.Files.Resolution
import PluginHost.Proofs.Info.Additions
import PluginHost.Proofs.Text.ByteOrder

/-! # Scanning a directory

The description files of a directory are gone through once, in the byte order of their names. What
counts is what they are, and not in which order the directory is listed. A file that may not be read
is passed over like one that holds no description; a pipe keeps the scan waiting for ever. -/

namespace PluginHost

namespace Catalog

/-! ## Going once through the names -/

/-- The description under a name in a directory, if it can be read and is valid. -/
def usable (fs : FileSystem) (directory name : String) : Option PluginInfo :=
  (readInfo fs (Path.join directory name)).bind Except.toOption

/-- Names are gone through once. What cannot be used is passed over, and so is what repeats the name
or the service of a description that was kept; everything else is kept. -/
inductive Gathers (read : String → Option PluginInfo) :
    List String → List (String × PluginInfo) → Prop where
  | start : Gathers read [] []
  | unusable {names kept name} (earlier : Gathers read names kept) (h : read name = none) :
      Gathers read (names ++ [name]) kept
  | repeated {names kept name i} (earlier : Gathers read names kept) (h : read name = some i)
      (hshared : ∃ k ∈ kept, k.2.Shares i) : Gathers read (names ++ [name]) kept
  | fresh {names kept name i} (earlier : Gathers read names kept) (h : read name = some i)
      (hfree : ∀ k ∈ kept, ¬ k.2.Shares i) : Gathers read (names ++ [name]) (kept ++ [(name, i)])

namespace Gathers

variable {read : String → Option PluginInfo} {names : List String}
  {kept : List (String × PluginInfo)}

theorem sublist (h : Gathers read names kept) : (kept.map Prod.fst).Sublist names := by
  induction h with
  | start => exact .slnil
  | unusable _ _ ih => exact ih.trans (List.sublist_append_left _ _)
  | repeated _ _ _ ih => exact ih.trans (List.sublist_append_left _ _)
  | @fresh _ _ name _ _ _ _ ih => simpa using ih.append (List.Sublist.refl [name])

theorem pairwise_not_shares (h : Gathers read names kept) :
    kept.Pairwise fun k l => ¬ k.2.Shares l.2 := by
  induction h with
  | start => exact .nil
  | unusable _ _ ih => exact ih
  | repeated _ _ _ ih => exact ih
  | fresh _ _ hfree ih => simpa [List.pairwise_append, ih] using hfree

/-- What can be used is kept unless something earlier that was kept is in its way. -/
theorem kept_or_beaten {before : String → String → Prop} (h : Gathers read names kept)
    (hsorted : names.Pairwise before) {name : String} {i : PluginInfo} (hname : name ∈ names)
    (hread : read name = some i) :
    (name, i) ∈ kept ∨ ∃ k ∈ kept, before k.1 name ∧ k.2.Shares i := by
  -- In each rule the name is an earlier one, or the last one, about which the rule decides.
  induction h with
  | start => cases hname
  | unusable _ hnone ih =>
      rw [List.pairwise_append] at hsorted
      rcases List.mem_append.mp hname with hearlier | hlast
      · exact ih hsorted.1 hearlier
      · cases List.mem_singleton.mp hlast
        cases hnone.symm.trans hread
  | repeated earlier hsome hshared ih =>
      rw [List.pairwise_append] at hsorted
      rcases List.mem_append.mp hname with hearlier | hlast
      · exact ih hsorted.1 hearlier
      · cases List.mem_singleton.mp hlast
        cases hsome.symm.trans hread
        obtain ⟨k, hk, hks⟩ := hshared
        have hkname : k.1 ∈ _ := earlier.sublist.subset (List.mem_map_of_mem hk)
        exact .inr ⟨k, hk, hsorted.2.2 _ hkname _ hlast, hks⟩
  | fresh _ hsome _ ih =>
      rw [List.pairwise_append] at hsorted
      rcases List.mem_append.mp hname with hearlier | hlast
      · rcases ih hsorted.1 hearlier with hkept | ⟨k, hk, hbeaten⟩
        · exact .inl (List.mem_append_left _ hkept)
        · exact .inr ⟨k, List.mem_append_left _ hk, hbeaten⟩
      · cases List.mem_singleton.mp hlast
        cases hsome.symm.trans hread
        exact .inl (List.mem_append_right _ (List.mem_singleton_self _))

/-- What can be used is left out exactly if something earlier that was kept is in its way; what was
itself left out never is. -/
theorem left_out_iff {before : String → String → Prop} (h : Gathers read names kept)
    (hsorted : names.Pairwise before) (hirrefl : ∀ name, ¬ before name name) {name : String}
    {i : PluginInfo} (hname : name ∈ names) (hread : read name = some i) :
    (name, i) ∉ kept ↔ ∃ k ∈ kept, before k.1 name ∧ k.2.Shares i := by
  constructor
  · intro hout
    exact (h.kept_or_beaten hsorted hname hread).resolve_left hout
  · rintro ⟨k, hk, hbefore, hshared⟩ hkept
    have hne : k ≠ (name, i) := by
      rintro rfl
      exact hirrefl name hbefore
    have : Std.Symm fun k l : String × PluginInfo => ¬ k.2.Shares l.2 :=
      ⟨fun k l hkl hlk => hkl (hlk.imp Eq.symm Eq.symm)⟩
    exact h.pairwise_not_shares.forall hk hkept hne hshared

end Gathers

/-- Adding what can be used, description by description, is going once through the names. -/
theorem gathers_addUsable {read : String → Option PluginInfo} {done : List String}
    {kept : List (String × PluginInfo)} (h : Gathers read done kept) {c : Catalog}
    (hc : c.records.map Record.info = kept.map Prod.snd) (next : Nat) (names : List String) :
    ∃ all, Gathers read (done ++ names) all ∧
      (c.addUsable next (names.filterMap read)).records.map Record.info = all.map Prod.snd := by
  induction names generalizing done kept c next with
  | nil => exact ⟨kept, by simpa using h, by simpa [addUsable] using hc⟩
  | cons name rest ih =>
      rw [List.append_cons]
      cases hread : read name with
      | none =>
          rw [List.filterMap_cons_none hread]
          exact ih (h.unusable hread) hc next
      | some i =>
          rw [List.filterMap_cons_some hread]
          rcases c.add_cases ⟨next, i⟩ with ⟨s, hs, hclash, herror⟩ | ⟨hfree, grown, hok, hgrown⟩
          · have hinfo : s.info ∈ kept.map Prod.snd := hc ▸ List.mem_map_of_mem hs
            obtain ⟨k, hk, hki⟩ := List.mem_map.mp hinfo
            have hshared : k.2.Shares i := hki ▸ PluginInfo.clashes_iff.mp hclash
            simpa only [addUsable, herror] using
              ih (h.repeated hread ⟨k, hk, hshared⟩) hc next
          · have hnew : ∀ k ∈ kept, ¬ k.2.Shares i := by
              intro k hk hshared
              have hinfo : k.2 ∈ c.records.map Record.info := hc ▸ List.mem_map_of_mem hk
              obtain ⟨s, hs, hsi⟩ := List.mem_map.mp hinfo
              have hclash : s.info.clashes i = true :=
                PluginInfo.clashes_iff.mpr (hsi ▸ hshared)
              cases (hfree s hs).symm.trans hclash
            have hstored : grown.records.map Record.info = (kept ++ [(name, i)]).map Prod.snd := by
              simp [hgrown, hc]
            simpa only [addUsable, hok] using ih (h.fresh hread hnew) hstored (next + 1)

/-! ## The names -/

theorem mem_descriptionNames {names : List String} {name : String} :
    name ∈ descriptionNames names ↔
      name ∈ names ∧ Path.suffix? name = some descriptionSuffix := by
  simp [descriptionNames]

theorem pairwise_descriptionNames {names : List String} (h : names.Nodup) :
    (descriptionNames names).Pairwise (· < ·) := by
  have hsorted : (descriptionNames names).Pairwise fun a b => decide (a ≤ b) = true := by
    refine List.pairwise_mergeSort (fun a b c hab hbc => ?_) (fun a b => ?_) _
    · simp only [decide_eq_true_eq] at hab hbc ⊢
      exact hab.trans hbc
    · simpa using le_total a b
  have hnodup : (descriptionNames names).Nodup :=
    (List.mergeSort_perm _ _).nodup_iff.mpr (h.filter _)
  refine (hsorted.and hnodup).imp fun {a b} hab => ?_
  exact lt_of_le_of_ne (by simpa using hab.1) hab.2

/-- Which description files a directory has counts, and not the order in which it is listed. -/
theorem descriptionNames_congr {names others : List String} (h : names.Nodup) (h' : others.Nodup)
    (hmem : ∀ name, Path.suffix? name = some descriptionSuffix →
      (name ∈ others ↔ name ∈ names)) :
    descriptionNames others = descriptionNames names := by
  refine (pairwise_descriptionNames h').eq_of_mem_iff (pairwise_descriptionNames h) fun name => ?_
  rw [mem_descriptionNames, mem_descriptionNames]
  exact and_congr_left (hmem name)

/-! ## Reading the files -/

section

variable {fs changed : FileSystem} {directory : String} {names : List String}

theorem readInfo_eq_none {path : String} : readInfo fs path = none ↔ fs.readText path = none :=
  Option.map_eq_none_iff

theorem usableInfos_of_waiting {name : String} (hname : name ∈ names)
    (hwaits : fs.readText (Path.join directory name) = none) :
    usableInfos fs directory names = none := by
  induction names with
  | nil => cases hname
  | cons first rest ih =>
      rw [usableInfos]
      rcases List.mem_cons.mp hname with rfl | hrest
      · simp [readInfo_eq_none.mpr hwaits]
      · cases readInfo fs (Path.join directory first) <;> simp [ih hrest]

theorem usableInfos_of_ended
    (h : ∀ name ∈ names, fs.readText (Path.join directory name) ≠ none) :
    usableInfos fs directory names = some (names.filterMap (usable fs directory)) := by
  induction names with
  | nil => rfl
  | cons name rest ih =>
      obtain ⟨hname, hrest⟩ := List.forall_mem_cons.mp h
      obtain ⟨i, hi⟩ := Option.ne_none_iff_exists'.mp (mt readInfo_eq_none.mp hname)
      rw [usableInfos, ih hrest, hi, List.filterMap_cons, usable, hi]
      cases i <;> rfl

theorem usableInfos_congr
    (h : ∀ name ∈ names, changed.readText (Path.join directory name) =
      fs.readText (Path.join directory name)) :
    usableInfos changed directory names = usableInfos fs directory names := by
  induction names with
  | nil => rfl
  | cons name rest ih =>
      obtain ⟨hname, hrest⟩ := List.forall_mem_cons.mp h
      simp only [usableInfos, ih hrest, readInfo, hname]

end

/-! ## The catalog of a directory -/

section

open FileSystem

variable {fs changed : FileSystem} {directory : String} {place : Place}

/-- The process may list what is in a directory under a path. -/
structure Listable (fs : FileSystem) (directory : String) (place : Place) : Prop where
  resolved : fs.resolve directory = .ok place
  isDirectory : fs.isDirectoryAt place = true
  permitted : fs.permits .read place = true

theorem scan_of_listable (h : Listable fs directory place) (next : Nat) :
    scan fs next directory =
      (usableInfos fs directory (descriptionNames (fs.namesIn place))).map fun infos =>
        .ok (empty.addUsable next infos) := by
  have hlist : fs.list directory = .ok (fs.namesIn place) := by
    simp [FileSystem.list, h.resolved, h.isDirectory, h.permitted, bind, Except.bind, pure,
      Except.pure]
  simp only [scan, hlist]

/-- A change beside the description files of a directory: it touches neither an entry with their
suffix nor anything on the way to the directory or to one of them. -/
structure Beside (fs : FileSystem) (directory : String) (place : Place) (others : List String)
    (changed : FileSystem) : Prop where
  distinct : changed.Distinct
  only : ChangedOnly place others fs changed
  suffixes : ∀ name ∈ others, Path.suffix? name ≠ some descriptionSuffix
  directoryRoute : ∀ q ∈ fs.route directory, Avoids place others q
  fileRoutes : ∀ name, (fs.at? (place ++ [name])).isSome →
    Path.suffix? name = some descriptionSuffix →
    ∀ q ∈ fs.route (Path.join directory name), Avoids place others q

theorem avoids_sibling {others : List String} {name : String} (h : name ∉ others) :
    Avoids place others (place ++ [name]) := by
  intro other hother hbelow
  rw [List.prefix_append_right_inj, List.cons_prefix_cons] at hbelow
  exact h (hbelow.1 ▸ hother)

theorem Listable.congr {others : List String} (hl : Listable fs directory place)
    (h : Beside fs directory place others changed) : Listable changed directory place := by
  have hway : ∀ q ∈ fs.route directory, changed.at? q = fs.at? q :=
    fun q hq => h.only.elsewhere q (h.directoryRoute q hq)
  have hplace := hway place (mem_route_of_resolve hl.resolved)
  exact {
    resolved := (resolve_congr h.only.workingDirectory h.only.process hway).trans hl.resolved
    isDirectory := (isDirectoryAt_congr hplace).trans hl.isDirectory
    permitted := (permits_congr h.only.process hplace .read).trans hl.permitted }

theorem scan_congr {others : List String} (hdistinct : fs.Distinct)
    (hl : Listable fs directory place) (h : Beside fs directory place others changed)
    (next : Nat) : scan changed next directory = scan fs next directory := by
  have hnames : descriptionNames (changed.namesIn place) = descriptionNames (fs.namesIn place) := by
    refine descriptionNames_congr (nodup_namesIn hdistinct place) (nodup_namesIn h.distinct place)
      fun name hsuffix => ?_
    have hsame := h.only.elsewhere (place ++ [name])
      (avoids_sibling fun hother => h.suffixes name hother hsuffix)
    rw [mem_namesIn, mem_namesIn, hsame]
  have hread : ∀ name ∈ descriptionNames (fs.namesIn place),
      changed.readText (Path.join directory name) = fs.readText (Path.join directory name) := by
    intro name hname
    obtain ⟨hlisted, hsuffix⟩ := mem_descriptionNames.mp hname
    exact readText_congr h.only.workingDirectory h.only.process fun q hq =>
      h.only.elsewhere q (h.fileRoutes name (mem_namesIn.mp hlisted) hsuffix q hq)
  rw [scan_of_listable (hl.congr h), scan_of_listable hl, hnames, usableInfos_congr hread]

theorem beside_of_perm (hdistinct : fs.Distinct) {entries : List (Place × FileEntry)}
    (hperm : entries.Perm fs.entries) :
    Beside fs directory place [] { fs with entries := entries } where
  distinct := (hperm.map Prod.fst).nodup_iff.mpr hdistinct
  only := changedOnly_of_perm hdistinct hperm place
  suffixes _ hname := nomatch hname
  directoryRoute _ _ _ hname := nomatch hname
  fileRoutes _ _ _ _ _ _ hname := nomatch hname

/-- A description file stands under a name in a directory. -/
def Lists (fs : FileSystem) (place : Place) (name : String) : Prop :=
  (fs.at? (place ++ [name])).isSome ∧ Path.suffix? name = some descriptionSuffix

/-- A catalog holds what is kept of the description files of a directory when they are gone through
once, in the byte order of their names. -/
structure Scanned (fs : FileSystem) (directory : String) (place : Place) (c : Catalog)
    (names : List String) (kept : List (String × PluginInfo)) : Prop where
  listed : ∀ name, name ∈ names ↔ Lists fs place name
  ordered : names.Pairwise fun a b => Text.bytes a < Text.bytes b
  gathered : Gathers (usable fs directory) names kept
  stored : c.records.map Record.info = kept.map Prod.snd
  /-- A file that could be used is left out exactly if one that is kept and has a smaller name
  shares its name or service. -/
  leftOut : ∀ name ∈ names, ∀ text i,
    fs.readText (Path.join directory name) = some (.ok text) →
    PluginInfo.parse text (some (Path.join directory name)) = .ok i →
    ((name, i) ∉ kept ↔
      ∃ k ∈ kept, Text.bytes k.1 < Text.bytes name ∧ k.2.Shares i)

theorem scanned (hdistinct : fs.Distinct) (directory : String) (place : Place) (next : Nat) :
    ∃ kept, Scanned fs directory place
      (empty.addUsable next
        ((descriptionNames (fs.namesIn place)).filterMap (usable fs directory)))
      (descriptionNames (fs.namesIn place)) kept := by
  have hstart : Gathers (usable fs directory) [] [] := .start
  obtain ⟨kept, hgathered, hstored⟩ :=
    gathers_addUsable hstart (c := empty) rfl next (descriptionNames (fs.namesIn place))
  have hordered : (descriptionNames (fs.namesIn place)).Pairwise
      fun a b => Text.bytes a < Text.bytes b :=
    (pairwise_descriptionNames (nodup_namesIn hdistinct place)).imp Text.bytes_lt_of_lt
  refine ⟨kept, ⟨fun name => ?_, hordered, hgathered, hstored, ?_⟩⟩
  · rw [mem_descriptionNames, mem_namesIn, Lists]
  · intro name hname text i htext hparse
    have hread : usable fs directory name = some i := by
      simp [usable, readInfo, htext, hparse, Except.toOption]
    exact hgathered.left_out_iff hordered (fun _ => List.lt_irrefl _) hname hread

/-- What comes of scanning a directory. -/
inductive ScanResult (fs : FileSystem) (directory : String) (place : Place) :
    Option (Except HostError Catalog) → Prop where
  /-- One of its description files is waited for for ever. -/
  | waiting {name} (hlisted : Lists fs place name)
      (hwaits : fs.readText (Path.join directory name) = none) :
      ScanResult fs directory place none
  | ended {c names kept} (hscanned : Scanned fs directory place c names kept)
      (hends : ∀ name, Lists fs place name → fs.readText (Path.join directory name) ≠ none) :
      ScanResult fs directory place (some (.ok c))

theorem scan_result (hdistinct : fs.Distinct) (h : Listable fs directory place) (next : Nat) :
    ScanResult fs directory place (scan fs next directory) := by
  have hlisted (name) : name ∈ descriptionNames (fs.namesIn place) ↔ Lists fs place name := by
    rw [mem_descriptionNames, mem_namesIn, Lists]
  rw [scan_of_listable h]
  by_cases hends : ∀ name, Lists fs place name → fs.readText (Path.join directory name) ≠ none
  · rw [usableInfos_of_ended fun name hname => hends name ((hlisted name).mp hname)]
    obtain ⟨kept, hscanned⟩ := scanned hdistinct directory place next
    exact .ended hscanned hends
  · simp only [not_forall, not_not] at hends
    obtain ⟨name, hname, hwaits⟩ := hends
    rw [usableInfos_of_waiting ((hlisted name).mpr hname) hwaits]
    exact .waiting hname hwaits

/-- The catalog of a directory holds what is kept of its description files when they are gone
through once, in the byte order of their names; only a file that is waited for for ever keeps it
from coming. Neither the order in which the directory is listed nor a change beside those files
makes a difference. -/
theorem scan_gathers (hdistinct : fs.Distinct) (hlistable : Listable fs directory place)
    (next : Nat) :
    ScanResult fs directory place (scan fs next directory) ∧
      (∀ entries : List (Place × FileEntry), entries.Perm fs.entries →
        scan { fs with entries := entries } next directory = scan fs next directory) ∧
      ∀ others changed, Beside fs directory place others changed →
        scan changed next directory = scan fs next directory :=
  ⟨scan_result hdistinct hlistable next,
    fun _ hperm => scan_congr hdistinct hlistable (beside_of_perm hdistinct hperm) next,
    fun _ _ hbeside => scan_congr hdistinct hlistable hbeside next⟩

/-- A file that describes a plugin. -/
def describing (name service : String) (mode : Nat) : FileEntry :=
  let text := "name = \"" ++ name ++ "\"\nservice = \"" ++ service ++ "\"\n"
  ⟨.file text.toUTF8, superuser, superuser, mode⟩

/-- A directory for somebody who may not read its first file. The third one repeats a name of the
second and a service of the fourth. -/
def crowded : FileSystem :=
  .holding [(["info", "c.toml"], describing "web" "t" 0o644), (["info"], .plainDirectory),
    (["info", "b.toml"], describing "vpn" "t" 0o644),
    (["info", "a.toml"], describing "vpn" "s" 0o644),
    (["info", "0.toml"], describing "web" "s" 0o600),
    (["info", "notes.txt"], describing "vpn" "n" 0o644)] ⟨1000, 1000, []⟩

theorem scan_gathers_crowded :
    ∃ c names kept, scan crowded 0 "/info" = some (.ok c) ∧
      Scanned crowded "/info" ["info"] c names kept ∧
      crowded.readText "/info/0.toml" = some (.error .denied) ∧
      scan { crowded with entries := crowded.entries.reverse } 0 "/info" = some (.ok c) ∧
      scan (crowded.put ["info", "notes.txt"] (describing "web" "w" 0o644)) 0 "/info" =
        some (.ok c) := by
  have hdistinct : crowded.Distinct := by decide +kernel
  have hlistable : Listable crowded "/info" ["info"] :=
    ⟨by decide +kernel, by decide +kernel, by decide +kernel⟩
  have hends : ∀ name ∈ crowded.namesIn ["info"],
      (crowded.readText (Path.join "/info" name)).isSome := by
    decide +kernel
  have hdenied : crowded.readText "/info/0.toml" = some (.error .denied) := by decide +kernel
  obtain ⟨hresult, hrelisted, hchanged⟩ := scan_gathers hdistinct hlistable 0
  have hroutes : ∀ name ∈ crowded.namesIn ["info"], Path.suffix? name = some descriptionSuffix →
      ∀ q ∈ crowded.route (Path.join "/info" name), Avoids ["info"] ["notes.txt"] q := by
    decide +kernel
  have hbeside : Beside crowded "/info" ["info"] ["notes.txt"]
      (crowded.put ["info", "notes.txt"] (describing "web" "w" 0o644)) := {
    distinct := distinct_put hdistinct _ _
    only := changedOnly_put ["info"] "notes.txt" _
    suffixes := by decide +kernel
    directoryRoute := by decide +kernel
    fileRoutes := fun name hthere => hroutes name (mem_namesIn.mpr hthere) }
  rw [hrelisted _ (List.reverse_perm _), hchanged _ _ hbeside]
  generalize scan crowded 0 "/info" = result at hresult
  cases hresult with
  | waiting hlisted hwaits =>
      have hended := hends _ (mem_namesIn.mpr hlisted.1)
      rw [hwaits] at hended
      cases hended
  | @ended c names kept hscanned _ =>
      exact ⟨c, names, kept, rfl, hscanned, hdenied, rfl, rfl⟩

/-- A directory in which a description file is a link to a file beside it that is not there. -/
def dangling : FileSystem :=
  .holding [(["info"], .plainDirectory),
    (["info", "a.toml"], ⟨.link "notes.txt", superuser, superuser, 0o777⟩)] ⟨0, 0, []⟩

/-- A directory in which a description file is a pipe. -/
def piped : FileSystem :=
  .holding [(["info"], .plainDirectory),
    (["info", "a.toml"], ⟨.pipe, superuser, superuser, 0o644⟩)] ⟨0, 0, []⟩

/-- Links are followed, so a file without the suffix may hold what stands in a description file. And
there is no catalog at all of a directory with a pipe among its description files. -/
theorem scan_follows_links :
    let changed := dangling.put ["info", "notes.txt"] (describing "vpn" "s" 0o644)
    (dangling.Distinct ∧ changed.Distinct ∧ Listable dangling "/info" ["info"] ∧
      ChangedOnly ["info"] ["notes.txt"] dangling changed ∧
      Path.suffix? "notes.txt" ≠ some descriptionSuffix ∧
      scan changed 0 "/info" ≠ scan dangling 0 "/info") ∧
    piped.Distinct ∧ Listable piped "/info" ["info"] ∧ scan piped 0 "/info" = none := by
  intro changed
  have hdistinct : dangling.Distinct := by decide +kernel
  have hlistable : Listable dangling "/info" ["info"] :=
    ⟨by decide +kernel, by decide +kernel, by decide +kernel⟩
  have hempty : ((scan dangling 0 "/info").bind Except.toOption).map (·.records.length) =
      some 0 := by
    decide +kernel
  have hfound : ((scan (dangling.put ["info", "notes.txt"] (describing "vpn" "s" 0o644)) 0
      "/info").bind Except.toOption).map (·.records.length) = some 1 := by
    decide +kernel
  have hchanged : scan changed 0 "/info" ≠ scan dangling 0 "/info" := by
    intro hsame
    rw [show scan (dangling.put _ _) 0 "/info" = _ from hsame, hempty] at hfound
    cases hfound
  have hpiped : Listable piped "/info" ["info"] :=
    ⟨by decide +kernel, by decide +kernel, by decide +kernel⟩
  exact ⟨⟨hdistinct, distinct_put hdistinct _ _, hlistable,
    changedOnly_put ["info"] "notes.txt" _, by decide +kernel, hchanged⟩,
    by decide +kernel, hpiped, Option.isNone_iff_eq_none.mp (by decide +kernel)⟩

end

end Catalog

end PluginHost
