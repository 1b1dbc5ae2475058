import PluginHost.Proofs.Files.Names
import PluginHost.Proofs.Files.Vetting
import PluginHost.Proofs.Loader.Vetted
import PluginHost.System.Libraries

/-! # What a checked load opens

Nothing in a load looks out for `.` or `..` in a name. Still a checked load opens nothing but
regular files under absolute paths: the one that was given, or a name in the plugin directory. -/

namespace PluginHost

variable {σ : Type}

/-- A path is that of a name in an absolute directory. -/
structure ChildOf (fs : FileSystem) (directory name path : String) : Prop where
  bare : '/' ∉ name.toList
  not_archive : ¬ archiveSuffix <:+ name.toList
  absolute : Path.isAbsolute directory = true
  path_eq : path =
    if Path.endsInSlash directory then directory ++ name else directory ++ "/" ++ name
  last_eq : (Path.parts path).getLast? = some name
  /-- The directory is there, and the name is in it. -/
  there : ∃ place e, fs.Leads directory place ∧ fs.isDirectoryAt place = true ∧
    fs.at? (place ++ [name]) = some e

/-- A path may be opened on behalf of a name. -/
structure Openable (fs : FileSystem) (directory name path : String) : Prop where
  absolute : Path.isAbsolute path = true
  /-- The path leads to a regular file, and that file is the library which the operating system
  takes the path for. -/
  regular : ∃ place content permissions, fs.Leads path place ∧
    fs.at? place = some ⟨.file content, permissions⟩ ∧ Libraries.key? fs path = some (.file place)
  named : path = name ∨ ChildOf fs directory name path
  ne_same : name ≠ "."
  ne_above : name ≠ ".."
  absolute_of_slash : '/' ∈ name.toList → Path.isAbsolute name = true
  absolute_of_archive : archiveSuffix <:+ name.toList → Path.isAbsolute name = true

/-! ## From the path to the name -/

section

variable {fs : FileSystem} {directory name path : String} {place : Place}

/-- An absolute path is not searched for. -/
theorem key?_of_leads (hleads : fs.Leads path place) (habsolute : Path.isAbsolute path = true) :
    Libraries.key? fs path = some (.file place) := by
  obtain ⟨hnul, _, _⟩ := (FileSystem.checkPath_eq_ok_iff path).mp hleads.1
  have hplain : Libraries.plainName path = path :=
    if_neg fun hlast => hnul (List.mem_of_getLast? hlast)
  have hslash : '/' ∈ path.toList :=
    List.mem_of_head? (by simpa [Path.isAbsolute] using habsolute)
  simp [Libraries.key?, hplain, hslash, hleads.resolve_eq, Except.toOption]

theorem resolveName_cases (directory name : String) :
    '/' ∉ name.toList ∧ ¬ archiveSuffix <:+ name.toList ∧
        resolveName directory name true = Path.join directory name ∨
      ('/' ∈ name.toList ∨ archiveSuffix <:+ name.toList) ∧
        resolveName directory name true = name := by
  by_cases hslash : '/' ∈ name.toList
  · exact .inr ⟨.inl hslash, by simp [resolveName, hslash]⟩
  · by_cases harchive : archiveSuffix <:+ name.toList
    · exact .inr ⟨.inr harchive, by simp [resolveName, harchive]⟩
    · exact .inl ⟨hslash, harchive, by simp [resolveName, hslash, harchive]⟩

theorem Trusted.isRegular {required : Option Nat} {status : FileStatus}
    (h : Trusted fs required path status) :
    ∃ place content permissions, fs.Leads path place ∧
      fs.at? place = some ⟨.file content, permissions⟩ ∧
      Libraries.key? fs path = some (.file place) := by
  obtain ⟨place, content, permissions, hleads, hplace, _⟩ := h.regular
  exact ⟨place, content, permissions, hleads, hplace, key?_of_leads hleads h.absolute⟩

theorem openable_of_trusted {required : Option Nat} {status : FileStatus} (hne : name ≠ "")
    (h : Trusted fs required (resolveName directory name true) status) :
    Openable fs directory name (resolveName directory name true) := by
  rcases resolveName_cases directory name with ⟨hbare, harchive, hpath⟩ | ⟨_, hpath⟩
  · rw [hpath] at h ⊢
    obtain ⟨place, content, permissions, hleads, hplace, _⟩ := h.regular
    have hfile : fs.isDirectoryAt place = false := by
      simp [FileSystem.isDirectoryAt, hplace, FileEntry.isDirectory]
    obtain ⟨above, e, hdirectory, hd, hn, he⟩ :=
      hleads.exists_directory hfile hbare hne h.absolute
    have hroot := Path.isAbsolute_directory hbare h.absolute
    exact {
      absolute := h.absolute
      regular := h.isRegular
      named := .inr {
        bare := hbare
        not_archive := harchive
        absolute := hroot
        path_eq := Path.join_of_bare hbare hroot
        last_eq := by rw [Path.parts_join hbare hne hroot, List.getLast?_concat]
        there := ⟨above, e, hdirectory, hd, he⟩ }
      ne_same := hn.ne_same
      ne_above := hn.ne_above
      absolute_of_slash := fun hslash => absurd hslash hbare
      absolute_of_archive := fun hsuffix => absurd hsuffix harchive }
  · rw [hpath] at h ⊢
    have habsolute := h.absolute
    exact {
      absolute := habsolute
      regular := h.isRegular
      named := .inl rfl
      ne_same := by rintro rfl; cases habsolute
      ne_above := by rintro rfl; cases habsolute
      absolute_of_slash := fun _ => habsolute
      absolute_of_archive := fun _ => habsolute }

end

/-! ## Loads -/

/-- Whatever a checked load opens may be opened on behalf of its name. So a relative path, a name of
an archive, `.` and `..` open nothing. -/
theorem checked_load_opens (loader : PluginLoader σ) (fs : FileSystem) (name : String)
    (options : LoadOptions σ) (state : σ) (hchecked : options.checked = true) {path : String}
    {result : Except String Unit}
    (hmapped : .mapped path result ∈ (loader.load fs name options state).steps) :
    Openable fs loader.directory name path := by
  have hne : name ≠ "" := by
    rintro rfl
    simp [PluginLoader.load] at hmapped
  have hrule := load_rule loader fs name options state
  obtain ⟨before, after, hs⟩ := List.append_of_mem hmapped
  obtain ⟨rfl, probed, clearance, cleared, _, hclears, _⟩ := hrule.clears_of_mapped hs
  obtain ⟨_, hvet⟩ := vetted_of_clears hclears hchecked
  obtain ⟨status, htrusted, _⟩ := vet_eq_ok_iff.mp hvet
  rw [hchecked] at htrusted ⊢
  exact openable_of_trusted hne htrusted

theorem checked_load_opens_linked :
    let files : FileSystem := .holding [(["lib"], .plainDirectory),
      (["lib", "vpn.so"], .plainFile ByteArray.empty),
      (["plugins"], ⟨.link "lib", superuser, superuser, 0o777⟩)] ⟨1000, 1000, []⟩
    let loader : PluginLoader (String → Nat) :=
      ⟨"/plugins", Backend.counting fun _ => some (.error none)⟩
    let options : LoadOptions (String → Nat) := ⟨true, none, ⟨some 1000, none⟩⟩
    options.checked = true ∧
      .mapped "/plugins/vpn.so" (.ok ()) ∈
        (loader.load files "vpn.so" options fun _ => 0).steps ∧
      Openable files loader.directory "vpn.so" "/plugins/vpn.so" := by
  intro files loader options
  have hpath : resolveName "/plugins" "vpn.so" true = "/plugins/vpn.so" := by decide +kernel
  have hvetted : (vet files options.rules "/plugins/vpn.so" fun _ : String => 0).1 = .ok () := by
    decide +kernel
  obtain ⟨status, htrusted, _⟩ := vet_eq_ok_iff.mp hvetted
  have hvet := vet_without_policy htrusted fun _ : String => 0
  clear_value files
  have hmapped : .mapped "/plugins/vpn.so" (.ok ()) ∈
      (loader.load files "vpn.so" options fun _ => 0).steps := by
    simp [PluginLoader.load, loader, options, hpath, hvet, Backend.counting, mapModule, useModule]
  exact ⟨rfl, hmapped, checked_load_opens loader files "vpn.so" options _ rfl hmapped⟩

end PluginHost
