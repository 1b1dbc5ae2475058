import Mathlib.Data.List.Basic
import PluginHost.Proofs.Files.Following

/-! # Names in a directory

The path of a name in a directory leads first where the directory's own path leads, and then to
that name. On the way every place has directories above it, so `.` and `..` never name a file. -/

namespace PluginHost

/-! ## Texts of paths -/

namespace Path

theorem names_around_slash {path : String} {before after : List Char}
    (h : path.toList = before ++ '/' :: after) :
    names path = names (String.ofList before) ++ names (String.ofList after) := by
  simp only [names, h, String.toList_ofList, List.splitOn]
  rw [List.splitOnP_append_cons before after (by simp), List.map_append, List.filter_append]

theorem names_append_slash (directory name : String) :
    names (directory ++ "/" ++ name) = names directory ++ names name := by
  have h : (directory ++ "/" ++ name).toList = directory.toList ++ '/' :: name.toList := by simp
  rw [names_around_slash h, String.ofList_toList, String.ofList_toList]

theorem names_append_of_endsInSlash {directory : String} (hslash : endsInSlash directory = true)
    (name : String) : names (directory ++ name) = names directory ++ names name := by
  obtain ⟨before, hbefore⟩ := List.getLast?_eq_some_iff.mp (by simpa [endsInSlash] using hslash)
  have h : (directory ++ name).toList = before ++ '/' :: name.toList := by simp [hbefore]
  have hnone : names (String.ofList []) = [] := by simp [names]
  rw [names_around_slash h, names_around_slash hbefore, hnone, List.append_nil,
    String.ofList_toList]

section

variable {directory name : String} (hbare : '/' ∉ name.toList)

include hbare

theorem names_of_bare (hne : name ≠ "") : names name = [name] := by
  simp [names, List.splitOn_eq_singleton hbare, hne]

theorem isAbsolute_of_bare : isAbsolute name = false := by
  rw [isAbsolute, beq_eq_false_iff_ne]
  exact fun hfirst => hbare (List.mem_of_head? hfirst)

theorem endsInSlash_append_of_bare (hne : name ≠ "") (path : String) :
    endsInSlash (path ++ name) = false := by
  have hname : name.toList ≠ [] := by simpa using hne
  rw [endsInSlash, beq_eq_false_iff_ne, String.toList_append,
    List.getLast?_append_of_ne_nil _ hname]
  exact fun hlast => hbare (List.mem_of_getLast? hlast)

theorem join_of_bare (habsolute : isAbsolute directory = true) :
    join directory name =
      if endsInSlash directory then directory ++ name else directory ++ "/" ++ name := by
  have hempty : directory.isEmpty = false := by
    rw [← Bool.not_eq_true, String.isEmpty_iff]
    rintro rfl
    cases habsolute
  rw [join, isAbsolute_of_bare hbare, hempty]
  simp

theorem isAbsolute_directory (h : isAbsolute (join directory name) = true) :
    isAbsolute directory = true := by
  rw [join, isAbsolute_of_bare hbare] at h
  simp only [Bool.false_eq_true, if_false] at h
  cases hcs : directory.toList with
  | nil =>
      have hempty : directory = "" := String.toList_eq_nil_iff.mp hcs
      simp [hempty, isAbsolute_of_bare hbare] at h
  | cons c cs =>
      split at h
      · simpa [isAbsolute, hcs] using h
      · simpa [isAbsolute, hcs] using h

theorem exists_join_eq (habsolute : isAbsolute directory = true) :
    ∃ rest, join directory name = directory ++ rest := by
  rw [join_of_bare hbare habsolute]
  split_ifs
  · exact ⟨name, rfl⟩
  · exact ⟨"/" ++ name, String.append_assoc⟩

/-- What a directory's own path says is kept, also where it ends in a slash of its own. -/
theorem parts_join (hne : name ≠ "") (habsolute : isAbsolute directory = true) :
    parts (join directory name) = names directory ++ [name] := by
  have hend (path : String) : parts (path ++ name) = names (path ++ name) := by
    rw [parts, endsInSlash_append_of_bare hbare hne path]
    rfl
  rw [join_of_bare hbare habsolute]
  split_ifs with hslash
  · rw [hend, names_append_of_endsInSlash hslash, names_of_bare hbare hne]
  · rw [hend, names_append_slash, names_of_bare hbare hne]

end

end Path

namespace FileSystem

variable {fs : FileSystem}

/-! ## Paths in two pieces -/

theorem exists_of_isDirectoryAt {place : Place} (h : fs.isDirectoryAt place = true) :
    ∃ e, fs.at? place = some e := by
  unfold isDirectoryAt at h
  split at h
  · exact ⟨_, ‹_›⟩
  · cases h

theorem Follows.exists_start {links : Nat} {parts : List String} {place last : Place}
    (h : fs.Follows links parts place (.ok last)) : ∃ e, fs.at? place = some e := by
  cases h with
  | arrived he => exact ⟨_, he⟩
  | slash hd => exact exists_of_isDirectoryAt hd
  | same hd | above hd | link hd | entered hd => exact exists_of_isDirectoryAt hd.directory

theorem Follows.append {first second : Nat} {parts more : List String} {place middle : Place}
    {result : Except FileFault Place} (h : fs.Follows first parts place (.ok middle))
    (hmore : fs.Follows second more middle result) :
    fs.Follows (first + second) (parts ++ more) place result := by
  generalize hfound : Except.ok middle = found at h
  induction h with
  | arrived =>
      cases hfound
      simpa using hmore
  | lost | blocked | denied | tooLong | absent => cases hfound
  | slash hd _ ih => exact .slash hd (ih hfound)
  | same hd _ ih => exact .same hd (ih hfound)
  | above hd _ ih => exact .above hd (ih hfound)
  | link hd hn he _ ih =>
      rw [Nat.add_right_comm]
      exact .link hd hn he (by simpa using ih hfound)
  | entered hd hn he hk _ ih => exact .entered hd hn he hk (ih hfound)

/-- The parts of a path lead to a place, and from there the rest of it leads on. -/
def Passes (fs : FileSystem) (links : Nat) (parts more : List String) (place last : Place) : Prop :=
  ∃ first second middle, first + second = links ∧ fs.Follows first parts place (.ok middle) ∧
    fs.Follows second more middle (.ok last)

theorem passes_nil {links : Nat} {more : List String} {place last : Place}
    (h : fs.Follows links more place (.ok last)) : fs.Passes links [] more place last := by
  obtain ⟨e, he⟩ := h.exists_start
  exact ⟨0, links, place, Nat.zero_add links, .arrived he, h⟩

theorem passes_of_rule (used : Nat) {links : Nat}
    {parts rest more : List String} {place next last : Place}
    (h : fs.Passes links rest more next last)
    (hrule : ∀ n result, fs.Follows n rest next result → fs.Follows (n + used) parts place result) :
    fs.Passes (links + used) parts more place last := by
  obtain ⟨first, second, middle, rfl, hfirst, hsecond⟩ := h
  exact ⟨first + used, second, middle, Nat.add_right_comm .., hrule _ _ hfirst, hsecond⟩

theorem Follows.passes {links : Nat} {parts more : List String} {place last : Place}
    (h : fs.Follows links (parts ++ more) place (.ok last)) :
    fs.Passes links parts more place last := by
  generalize hall : parts ++ more = all at h
  generalize hfound : Except.ok last = found at h
  induction h generalizing parts with
  | lost | blocked | denied | tooLong | absent => cases hfound
  | arrived he =>
      cases hfound
      obtain ⟨rfl, rfl⟩ := List.append_eq_nil_iff.mp hall
      exact passes_nil (.arrived he)
  | slash hd hrest ih =>
      subst hfound
      rcases List.append_eq_cons_iff.mp hall with ⟨rfl, rfl⟩ | ⟨parts, rfl, hrest'⟩
      · exact passes_nil (.slash hd hrest)
      · exact passes_of_rule 0 (ih hrest'.symm rfl) fun _ _ => .slash hd
  | same hd hrest ih =>
      subst hfound
      rcases List.append_eq_cons_iff.mp hall with ⟨rfl, rfl⟩ | ⟨parts, rfl, hrest'⟩
      · exact passes_nil (.same hd hrest)
      · exact passes_of_rule 0 (ih hrest'.symm rfl) fun _ _ => .same hd
  | above hd hrest ih =>
      subst hfound
      rcases List.append_eq_cons_iff.mp hall with ⟨rfl, rfl⟩ | ⟨parts, rfl, hrest'⟩
      · exact passes_nil (.above hd hrest)
      · exact passes_of_rule 0 (ih hrest'.symm rfl) fun _ _ => .above hd
  | link hd hn he hrest ih =>
      -- the target stands before the parts that are left, so the cut moves behind it
      subst hfound
      rcases List.append_eq_cons_iff.mp hall with ⟨rfl, rfl⟩ | ⟨parts, rfl, rfl⟩
      · exact passes_nil (.link hd hn he hrest)
      · exact passes_of_rule 1 (ih (List.append_assoc ..) rfl) fun _ _ => .link hd hn he
  | entered hd hn he hk hrest ih =>
      subst hfound
      rcases List.append_eq_cons_iff.mp hall with ⟨rfl, rfl⟩ | ⟨parts, rfl, hrest'⟩
      · exact passes_nil (.entered hd hn he hk hrest)
      · exact passes_of_rule 0 (ih hrest'.symm rfl) fun _ _ => .entered hd hn he hk

/-! ## Places below directories -/

/-- Every place above a place is a directory. -/
def Rooted (fs : FileSystem) (place : Place) : Prop :=
  ∀ above below, place = above ++ below → below ≠ [] → fs.isDirectoryAt above = true

theorem rooted_root : fs.Rooted [] := by
  intro above below h hbelow
  exact absurd (List.append_eq_nil_iff.mp h.symm).2 hbelow

theorem Rooted.enter {place : Place} {part : String} (h : fs.Rooted place)
    (hd : fs.isDirectoryAt place = true) : fs.Rooted (place ++ [part]) := by
  intro above below heq hbelow
  obtain ⟨below, last, rfl⟩ := List.eq_nil_or_concat' below |>.resolve_left hbelow
  rw [← List.append_assoc] at heq
  obtain ⟨heq, _⟩ := List.append_inj' heq rfl
  by_cases hnone : below = []
  · subst hnone
    rw [List.append_nil] at heq
    exact heq ▸ hd
  · exact h above below heq hnone

theorem Rooted.dropLast {place : Place} (h : fs.Rooted place) : fs.Rooted place.dropLast := by
  rcases List.eq_nil_or_concat' place with rfl | ⟨place, part, rfl⟩
  · exact rooted_root
  · intro above below heq hbelow
    rw [List.dropLast_concat] at heq
    exact h above (below ++ [part]) (by rw [heq, List.append_assoc]) (by simp)

theorem Rooted.isDirectoryAt_dropLast {place : Place} (h : fs.Rooted place) :
    fs.isDirectoryAt place.dropLast = true := by
  rcases List.eq_nil_or_concat' place with rfl | ⟨place, part, rfl⟩
  · rfl
  · exact h _ [part] (by rw [List.dropLast_concat]) (by simp)

theorem Follows.rooted {links : Nat} {parts : List String} {place last : Place}
    (h : fs.Follows links parts place (.ok last)) (hrooted : fs.Rooted place) :
    fs.Rooted last := by
  generalize hfound : Except.ok last = found at h
  induction h with
  | arrived =>
      cases hfound
      exact hrooted
  | lost | blocked | denied | tooLong | absent => cases hfound
  | slash _ _ ih => exact ih hrooted hfound
  | same _ _ ih => exact ih hrooted hfound
  | above _ _ ih => exact ih hrooted.dropLast hfound
  | @link _ _ _ place target _ _ hd hn he _ ih =>
      refine ih ?_ hfound
      unfold linkStart
      split
      · exact rooted_root
      · exact hrooted
  | entered hd _ _ _ _ ih => exact ih (hrooted.enter hd.directory) hfound

/-! ## The last part of a path -/

/-- What is no directory is reached from the directory above it under a name. -/
theorem Follows.exists_directory {links : Nat} {parts : List String} {part : String} {last : Place}
    (h : fs.Follows links (parts ++ [part]) [] (.ok last))
    (hlast : fs.isDirectoryAt last = false) :
    ∃ first ≤ links, ∃ place e, fs.Follows first parts [] (.ok place) ∧
      fs.isDirectoryAt place = true ∧ IsName part ∧ fs.at? (place ++ [part]) = some e := by
  obtain ⟨first, second, place, rfl, hfirst, hsecond⟩ := h.passes
  refine ⟨first, Nat.le_add_right first second, place, ?_⟩
  cases hsecond with
  | slash hd hrest =>
      cases hrest
      exact absurd hd (by simp [hlast])
  | same hd hrest =>
      cases hrest
      exact absurd hd.directory (by simp [hlast])
  | above hd hrest =>
      -- above a place that was reached there is a directory, and never a file
      cases hrest
      have hparent := (hfirst.rooted rooted_root).isDirectoryAt_dropLast
      exact absurd hparent (by simp [hlast])
  | link hd hn he => exact ⟨_, hfirst, hd.directory, hn, he⟩
  | entered hd hn he => exact ⟨_, hfirst, hd.directory, hn, he⟩

theorem checkPath_eq_ok_iff (path : String) :
    checkPath path = .ok () ↔
      '\x00' ∉ path.toList ∧ path ≠ "" ∧ path.utf8ByteSize ≤ pathLimit := by
  unfold checkPath
  split_ifs with hnul hempty hlong
  · simpa using fun h => absurd (by simpa using hnul) h
  · simpa using fun _ h => absurd (by simpa using hempty) h
  · simpa using fun _ _ => hlong
  · simp_all

theorem checkPath_of_append {path rest : String} (h : checkPath (path ++ rest) = .ok ())
    (hne : path ≠ "") : checkPath path = .ok () := by
  obtain ⟨hnul, _, hlength⟩ := (checkPath_eq_ok_iff _).mp h
  rw [String.toList_append, List.mem_append, not_or] at hnul
  rw [String.utf8ByteSize_append] at hlength
  exact (checkPath_eq_ok_iff _).mpr ⟨hnul.1, hne, Nat.le_of_add_right_le hlength⟩

/-- A name in a directory that leads to a file is in the place where the directory leads. -/
theorem Leads.exists_directory {directory name : String} {last : Place}
    (h : fs.Leads (Path.join directory name) last) (hlast : fs.isDirectoryAt last = false)
    (hbare : '/' ∉ name.toList) (hne : name ≠ "")
    (habsolute : Path.isAbsolute (Path.join directory name) = true) :
    ∃ place e, fs.Leads directory place ∧ fs.isDirectoryAt place = true ∧ IsName name ∧
      fs.at? (place ++ [name]) = some e := by
  obtain ⟨hcheck, links, hbound, hfollows⟩ := h
  have hdirectory := Path.isAbsolute_directory hbare habsolute
  have hnonempty : directory ≠ "" := by
    rintro rfl
    cases hdirectory
  obtain ⟨rest, hjoin⟩ := Path.exists_join_eq hbare hdirectory
  rw [Path.parts_join hbare hne hdirectory, beginning, if_pos habsolute] at hfollows
  obtain ⟨first, hfirst, place, e, hplace, hd, hn, he⟩ := hfollows.exists_directory hlast
  rw [hjoin] at hcheck
  refine ⟨place, e, ⟨checkPath_of_append hcheck hnonempty, first,
    Nat.le_trans hfirst hbound, ?_⟩, hd, hn, he⟩
  rw [beginning, if_pos hdirectory, Path.parts]
  split_ifs
  · -- a slash at the end asks for the directory that is there
    obtain ⟨found, hfound⟩ := exists_of_isDirectoryAt hd
    exact hplace.append (.slash hd (.arrived hfound))
  · exact hplace

end FileSystem

end PluginHost
