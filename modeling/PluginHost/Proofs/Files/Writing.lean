import Mathlib.Tactic.SplitIfs
import PluginHost.Proofs.Files.Entries
import PluginHost.Proofs.Files.Resolution
import PluginHost.Proofs.Results

/-! # Reading what was written

A path that leads to a file, or to a name that its directory does not have yet, leads to the same
place after a text was written there, and there the text is. -/

namespace PluginHost.FileSystem

variable {fs changed : FileSystem}

/-- A text can be kept under a path, and be read there: the path leads to a file that grants both,
or to a name that its directory does not have yet. Pipes and devices do not keep a text. -/
inductive Writable (fs : FileSystem) (path : String) : Prop where
  | vacant {place} (h : fs.destination path = .ok (.vacant place))
      (hwrite : fs.permits .write place.dropLast = true)
  | file {place content permissions} (h : fs.destination path = .ok (.present place))
      (he : fs.at? place = some ⟨.file content, permissions⟩)
      (hwrite : permissions.grant fs.process .write = true)
      (hread : permissions.grant fs.process .read = true)

/-- A file stands at a place, or nothing. -/
def HasRoom (fs : FileSystem) (place : Place) : Prop :=
  ∀ e, fs.at? place = some e → ∃ content, e.kind = .file content

/-- A file with this content was put at a place where there was one, or nothing. -/
structure Wrote (place : Place) (content : ByteArray) (permissions : Permissions)
    (fs changed : FileSystem) : Prop where
  workingDirectory : changed.workingDirectory = fs.workingDirectory
  process : changed.process = fs.process
  room : fs.HasRoom place
  elsewhere : ∀ q, q ≠ place → changed.at? q = fs.at? q
  kept : changed.at? place = some ⟨.file content, permissions⟩

/-- The place at which a path ends. -/
def Target.place : Target → Place
  | .present place => place
  | .vacant place => place

/-- Goes on behind a link; a link at the end may not ask for a directory. -/
def followLink (fs : FileSystem) (links : Nat) (isWritten : Bool) (directory : Place)
    (target : String) (rest : List String) : Except FileFault Target :=
  let start := if Path.isAbsolute target then [] else directory
  if isWritten && rest.isEmpty && Path.endsInSlash target then do
    let _ ← fs.walk links false (Path.above target) start
    .error .isADirectory
  else fs.walk links isWritten (Path.parts target ++ rest) start

theorem walk_succ_followLink (links : Nat) (isWritten : Bool) :
    fs.walk (links + 1) isWritten = fs.step (fs.followLink links isWritten) := rfl

theorem walk_of_followLink {links : Nat} {isWritten : Bool} {directory : Place} {target : String}
    {rest : List String} {found : Target}
    (h : fs.followLink links isWritten directory target rest = .ok found) :
    fs.walk links isWritten (Path.parts target ++ rest)
      (if Path.isAbsolute target then [] else directory) = .ok found := by
  simp only [followLink] at h
  split at h
  next =>
    obtain ⟨above, _, hfault⟩ := bind_eq_ok.mp h
    cases hfault
  next => exact h

theorem walk_of_destination {path : String} {found : Target}
    (h : fs.destination path = .ok found) :
    checkPath path = .ok () ∧
      fs.walk linkLimit true (Path.parts path) (fs.beginning path) = .ok found := by
  obtain ⟨_, hlegal, h⟩ := bind_eq_ok.mp h
  split at h
  next =>
    obtain ⟨above, _, hfault⟩ := bind_eq_ok.mp h
    cases hfault
  next => exact ⟨hlegal, h⟩

section

variable {place : Place} {content : ByteArray} {permissions : Permissions}

theorem HasRoom.not_directory (h : fs.HasRoom place) : fs.isDirectoryAt place = false := by
  rw [isDirectoryAt]
  cases hentry : fs.at? place with
  | none => rfl
  | some e =>
      obtain ⟨old, hfile⟩ := h e hentry
      simp [FileEntry.isDirectory, hfile]

theorem Wrote.not_directory (h : Wrote place content permissions fs changed) :
    changed.isDirectoryAt place = false := by
  simp [FileSystem.isDirectoryAt, h.kept, FileEntry.isDirectory]

theorem Wrote.turn (h : Wrote place content permissions fs changed) (part : String) (q : Place) :
    changed.turn part q = fs.turn part q := by
  by_cases hq : q = place
  · simp [FileSystem.turn, hq, h.not_directory, h.room.not_directory]
  · exact turn_congr h.process (h.elsewhere q hq) part

theorem Wrote.step_into (h : Wrote place content permissions fs changed)
    {follow follow' : Place → String → List String → Except FileFault Target}
    (hfollow : ∀ directory target rest found, follow directory target rest = .ok found →
      found.place = place → follow' directory target rest = .ok (.present place))
    {rest : List String} {start next : Place} {found : Target}
    (hrest : ∀ next, fs.step follow rest next = .ok found →
      changed.step follow' rest next = .ok (.present place))
    (hstep : fs.stepInto follow start rest next = .ok found) (hfound : found.place = place) :
    changed.stepInto follow' start rest next = .ok (.present place) := by
  rw [stepInto] at hstep ⊢
  by_cases hnext : next = place
  · -- What is left of the path ends here, at a file or where nothing is yet.
    subst hnext
    rw [h.kept]
    cases hentry : fs.at? next with
    | none =>
        rw [hentry] at hstep
        dsimp only at hstep
        split_ifs at hstep with hlast
        rw [List.isEmpty_iff.mp hlast]
        rfl
    | some e =>
        obtain ⟨old, hfile⟩ := h.room e hentry
        obtain ⟨kind, _⟩ := e
        cases hfile
        rw [hentry] at hstep
        exact hrest next hstep
  · rw [h.elsewhere _ hnext]
    cases hentry : fs.at? next with
    | none =>
        rw [hentry] at hstep
        dsimp only at hstep
        split_ifs at hstep
        cases hstep
        exact absurd hfound hnext
    | some e =>
        obtain ⟨kind, _⟩ := e
        rw [hentry] at hstep
        cases kind with
        | link target => exact hfollow start target rest found hstep hfound
        | _ => exact hrest _ hstep

/-- The way to a place does not lead through what stands there. -/
theorem Wrote.step (h : Wrote place content permissions fs changed)
    {follow follow' : Place → String → List String → Except FileFault Target}
    (hfollow : ∀ directory target rest found, follow directory target rest = .ok found →
      found.place = place → follow' directory target rest = .ok (.present place))
    {parts : List String} {start : Place} {found : Target}
    (hstep : fs.step follow parts start = .ok found) (hfound : found.place = place) :
    changed.step follow' parts start = .ok (.present place) := by
  induction parts generalizing start with
  | nil =>
      cases hstep
      exact congrArg (fun q => Except.ok (Target.present q)) hfound
  | cons part rest ih =>
      rw [step_cons, h.turn]
      rcases hturn : fs.turn part start with fault | next | next
      · cases (step_of_fault hturn).symm.trans hstep
      · exact ih ((step_of_along hturn).symm.trans hstep)
      · exact h.step_into hfollow (fun _ => ih) ((step_of_into hturn).symm.trans hstep) hfound

theorem Wrote.walk (h : Wrote place content permissions fs changed) {links : Nat} {isWritten : Bool}
    {parts : List String} {start : Place} {found : Target}
    (hwalk : fs.walk links isWritten parts start = .ok found) (hfound : found.place = place) :
    changed.walk links false parts start = .ok (.present place) := by
  induction links generalizing parts start found with
  | zero => exact h.step (fun _ _ _ _ hfault => by cases hfault) hwalk hfound
  | succ links ih =>
      rw [walk_succ_followLink] at hwalk
      rw [walk_succ]
      exact h.step (fun _ _ _ _ hfollow => ih (walk_of_followLink hfollow)) hwalk hfound

theorem wrote_put (hbelow : place ≠ []) (hroom : fs.HasRoom place) (permissions : Permissions) :
    Wrote place content permissions fs (fs.put place ⟨.file content, permissions⟩) where
  workingDirectory := by rw [put_eq]
  process := by rw [put_eq]
  room := hroom
  elsewhere q hq := by rw [at?_put hbelow, if_neg hq]
  kept := by rw [at?_put hbelow, if_pos rfl]

end

/-! ## Names that are not there yet -/

section

variable {follow : Place → String → List String → Except FileFault Target} {parts : List String}
  {start place : Place}

theorem ne_nil_of_turn {part : String} {next : Place} (h : fs.turn part start = .ok (.into next)) :
    next ≠ [] := by
  unfold turn at h
  split_ifs at h
  · cases h
  · cases h
  · cases h
  · cases h
    simp

theorem vacant_of_step
    (hfollow : ∀ directory target rest, follow directory target rest = .ok (.vacant place) →
      place ≠ [] ∧ fs.at? place = none)
    (h : fs.step follow parts start = .ok (.vacant place)) :
    place ≠ [] ∧ fs.at? place = none := by
  induction parts generalizing start with
  | nil => cases h
  | cons part rest ih =>
      rcases hturn : fs.turn part start with fault | next | next
      · cases (step_of_fault hturn).symm.trans h
      · exact ih ((step_of_along hturn).symm.trans h)
      · rw [step_of_into hturn, stepInto] at h
        cases hentry : fs.at? next with
        | none =>
            rw [hentry] at h
            dsimp only at h
            split_ifs at h
            cases h
            exact ⟨ne_nil_of_turn hturn, hentry⟩
        | some e =>
            obtain ⟨kind, _⟩ := e
            rw [hentry] at h
            cases kind with
            | link target => exact hfollow start target rest h
            | _ => exact ih h

theorem vacant_of_walk {links : Nat} {isWritten : Bool}
    (h : fs.walk links isWritten parts start = .ok (.vacant place)) :
    place ≠ [] ∧ fs.at? place = none := by
  induction links generalizing parts start with
  | zero => exact vacant_of_step (fun _ _ _ hfault => by cases hfault) h
  | succ links ih =>
      rw [walk_succ_followLink] at h
      exact vacant_of_step (fun _ _ _ hfollow => ih (walk_of_followLink hfollow)) h

end

/-! ## Texts -/

theorem fromUTF8?_toByteArray (s : String) : String.fromUTF8? s.toByteArray = some s := by
  rw [String.fromUTF8?, dif_pos s.isValidUTF8]
  rfl

theorem readText_of_entry {path text : String} {permissions : Permissions}
    (h : fs.entry path = .ok ⟨.file text.toUTF8, permissions⟩)
    (hread : permissions.grant fs.process .read = true) :
    fs.readText path = some (.ok text) := by
  simp [FileSystem.readText, h, readEntry, hread, textOf, fromUTF8?_toByteArray]

theorem Wrote.readText {place : Place} {path text : String} {permissions : Permissions}
    (h : Wrote place text.toUTF8 permissions fs changed) {found : Target}
    (hdestination : fs.destination path = .ok found) (hfound : found.place = place)
    (hread : permissions.grant fs.process .read = true) :
    changed.readText path = some (.ok text) := by
  obtain ⟨hlegal, hwalk⟩ := walk_of_destination hdestination
  have hbeginning : changed.beginning path = fs.beginning path := by
    simp only [beginning, h.workingDirectory]
  have hresolve : changed.resolve path = .ok place := by
    rw [resolve_of_legal hlegal, hbeginning, h.walk hwalk hfound]
  have hentry : changed.entry path = .ok ⟨.file text.toUTF8, permissions⟩ := by
    simp [entry, hresolve, h.kept, bind, Except.bind, pure, Except.pure]
  exact readText_of_entry hentry (h.process ▸ hread)

/-- What a process makes it may read. -/
theorem grant_newFile (who : Credentials) :
    Permissions.grant ⟨who.user, who.group, newFileMode⟩ who .read = true := by
  simp [Permissions.grant, Access.bit, newFileMode, Nat.testBit]

/-- What is written under a path can be read there. -/
theorem Writable.exists_written {path : String} (h : fs.Writable path) (text : String) :
    ∃ changed, fs.writeText path text = some (.ok changed) ∧
      changed.readText path = some (.ok text) := by
  cases h with
  | @vacant place h hwrite =>
      obtain ⟨hbelow, hnone⟩ := vacant_of_walk (walk_of_destination h).2
      have hwrote : Wrote place text.toUTF8 _ fs _ :=
        wrote_put hbelow (fun e he => by cases hnone.symm.trans he)
          ⟨fs.process.user, fs.process.group, newFileMode⟩
      refine ⟨_, ?_, hwrote.readText h rfl (grant_newFile fs.process)⟩
      simp [writeText, h, hwrite]
  | @file place content permissions h he hwrite hread =>
      have hbelow : place ≠ [] := by
        rintro rfl
        cases he
      have hroom : fs.HasRoom place := by
        intro e hentry
        cases he.symm.trans hentry
        exact ⟨content, rfl⟩
      have hwrote : Wrote place text.toUTF8 _ fs _ := wrote_put hbelow hroom permissions
      refine ⟨_, ?_, hwrote.readText h rfl hread⟩
      simp [writeText, h, he, overwrite, hwrite]

end PluginHost.FileSystem
