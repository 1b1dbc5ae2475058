import Mathlib.Tactic.SplitIfs
import PluginHost.Files.Route

/-! # What a path depends on

For one process a path leads to the same file as long as nothing on its route changes. -/

namespace PluginHost.FileSystem

variable {fs changed : FileSystem}

theorem isDirectoryAt_congr {place : Place} (h : changed.at? place = fs.at? place) :
    changed.isDirectoryAt place = fs.isDirectoryAt place := by
  simp only [isDirectoryAt, h]

theorem permits_congr {place : Place} (hprocess : changed.process = fs.process)
    (h : changed.at? place = fs.at? place) (access : Access) :
    changed.permits access place = fs.permits access place := by
  simp only [permits, h, hprocess]

theorem turn_congr {place : Place} (hprocess : changed.process = fs.process)
    (h : changed.at? place = fs.at? place) (part : String) :
    changed.turn part place = fs.turn part place := by
  simp only [turn, isDirectoryAt_congr h, permits_congr hprocess h]

/-! ## Along the parts of a path -/

/-- Goes on to what stands under a name. -/
def stepInto (fs : FileSystem)
    (follow : Place → String → List String → Except FileFault Target) (place : Place)
    (rest : List String) (next : Place) : Except FileFault Target :=
  match fs.at? next with
  | none => if rest.isEmpty then .ok (.vacant next) else .error .missing
  | some ⟨.link target, _⟩ => follow place target rest
  | some _ => step fs follow rest next

section

variable {follow follow' : Place → String → List String → Except FileFault Target}
  {route : Place → String → List String → List Place} {part : String} {rest : List String}
  {place : Place}

theorem step_cons :
    fs.step follow (part :: rest) place =
      match fs.turn part place with
      | .error fault => .error fault
      | .ok (.along next) => fs.step follow rest next
      | .ok (.into next) => fs.stepInto follow place rest next := by
  rw [step]
  rfl

theorem step_of_fault {fault : FileFault} (h : fs.turn part place = .error fault) :
    fs.step follow (part :: rest) place = .error fault := by
  rw [step_cons, h]

theorem step_of_along {next : Place} (h : fs.turn part place = .ok (.along next)) :
    fs.step follow (part :: rest) place = fs.step follow rest next := by
  rw [step_cons, h]

theorem step_of_into {next : Place} (h : fs.turn part place = .ok (.into next)) :
    fs.step follow (part :: rest) place = fs.stepInto follow place rest next := by
  rw [step_cons, h]

theorem step_congr (hprocess : changed.process = fs.process)
    (hfollow : ∀ directory target rest,
      (∀ q ∈ route directory target rest, changed.at? q = fs.at? q) →
      follow' directory target rest = follow directory target rest)
    {parts : List String} (h : ∀ q ∈ fs.stepRoute route parts place, changed.at? q = fs.at? q) :
    changed.step follow' parts place = fs.step follow parts place := by
  induction parts generalizing place with
  | nil => rfl
  | cons part rest ih =>
      rw [stepRoute, List.forall_mem_cons] at h
      obtain ⟨hplace, hrest⟩ := h
      rw [step_cons, step_cons, turn_congr hprocess hplace]
      -- The route branches where the step does, so its cases decide both sides.
      rcases hturn : fs.turn part place with fault | next | next
      · rfl
      · rw [hturn] at hrest
        exact ih hrest
      · simp only [hturn, List.forall_mem_cons] at hrest
        obtain ⟨hnext, hbeyond⟩ := hrest
        simp only [stepInto, hnext]
        cases hentry : fs.at? next with
        | none => rfl
        | some e =>
            obtain ⟨kind, permissions⟩ := e
            rw [hentry] at hbeyond
            cases kind with
            | link target => exact hfollow place target rest hbeyond
            | _ => exact ih hbeyond

theorem mem_stepRoute_of_step
    (hfollow : ∀ directory target rest q, follow directory target rest = .ok (.present q) →
      q ∈ route directory target rest)
    {parts : List String} {q : Place} (h : fs.step follow parts place = .ok (.present q)) :
    q ∈ fs.stepRoute route parts place := by
  induction parts generalizing place with
  | nil =>
      cases h
      exact List.mem_singleton_self _
  | cons part rest ih =>
      rw [stepRoute]
      refine List.mem_cons_of_mem _ ?_
      rcases hturn : fs.turn part place with fault | next | next
      · cases (step_of_fault hturn).symm.trans h
      · rw [step_of_along hturn] at h
        exact ih h
      · rw [step_of_into hturn, stepInto] at h
        refine List.mem_cons_of_mem _ ?_
        cases hentry : fs.at? next with
        | none =>
            rw [hentry] at h
            dsimp only at h
            split_ifs at h
            all_goals cases h
        | some e =>
            obtain ⟨kind, permissions⟩ := e
            rw [hentry] at h
            cases kind with
            | link target => exact hfollow place target rest q h
            | _ => exact ih h

end

theorem walk_succ (links : Nat) :
    fs.walk (links + 1) false = fs.step fun directory target rest =>
      fs.walk links false (Path.parts target ++ rest)
        (if Path.isAbsolute target then [] else directory) := by
  funext parts place
  simp [walk]

theorem walk_congr (hprocess : changed.process = fs.process) {links : Nat} {parts : List String}
    {place : Place} (h : ∀ q ∈ fs.walkRoute links parts place, changed.at? q = fs.at? q) :
    changed.walk links false parts place = fs.walk links false parts place := by
  induction links generalizing parts place with
  | zero => exact step_congr hprocess (fun _ _ _ _ => rfl) h
  | succ links ih =>
      rw [walk_succ, walk_succ]
      exact step_congr hprocess (fun _ _ _ => ih) h

theorem mem_walkRoute_of_walk {links : Nat} {parts : List String} {place q : Place}
    (h : fs.walk links false parts place = .ok (.present q)) :
    q ∈ fs.walkRoute links parts place := by
  induction links generalizing parts place q with
  | zero =>
      refine mem_stepRoute_of_step (fun _ _ _ _ hfault => ?_) h
      cases hfault
  | succ links ih =>
      rw [walk_succ] at h
      exact mem_stepRoute_of_step (fun _ _ _ _ => ih) h

/-! ## To its end -/

theorem resolve_of_fault {path : String} {fault : FileFault} (h : checkPath path = .error fault) :
    fs.resolve path = .error fault := by
  simp [resolve, h, bind, Except.bind]

theorem resolve_of_legal {path : String} (h : checkPath path = .ok ()) :
    fs.resolve path =
      match fs.walk linkLimit false (Path.parts path) (fs.beginning path) with
      | .ok (.present place) => .ok place
      | .ok (.vacant _) => .error .missing
      | .error fault => .error fault := by
  simp only [resolve, h, bind, Except.bind]
  split <;> split <;> simp_all [pure, Except.pure]

theorem resolve_congr {path : String} (hwd : changed.workingDirectory = fs.workingDirectory)
    (hprocess : changed.process = fs.process) (h : ∀ q ∈ fs.route path, changed.at? q = fs.at? q) :
    changed.resolve path = fs.resolve path := by
  cases hcheck : checkPath path with
  | error fault => rw [resolve_of_fault hcheck, resolve_of_fault hcheck]
  | ok _ =>
      have hbegin : changed.beginning path = fs.beginning path := by simp only [beginning, hwd]
      simp only [route, hcheck] at h
      rw [resolve_of_legal hcheck, resolve_of_legal hcheck, hbegin,
        walk_congr hprocess h]

theorem mem_route_of_resolve {path : String} {place : Place}
    (h : fs.resolve path = .ok place) : place ∈ fs.route path := by
  cases hcheck : checkPath path with
  | error fault => cases (resolve_of_fault hcheck).symm.trans h
  | ok _ =>
      simp only [route, hcheck]
      rw [resolve_of_legal hcheck] at h
      split at h
      next q hwalk =>
        cases h
        exact mem_walkRoute_of_walk hwalk
      all_goals cases h

theorem entry_congr {path : String} (hwd : changed.workingDirectory = fs.workingDirectory)
    (hprocess : changed.process = fs.process) (h : ∀ q ∈ fs.route path, changed.at? q = fs.at? q) :
    changed.entry path = fs.entry path := by
  unfold entry
  rw [resolve_congr hwd hprocess h]
  cases hresolve : fs.resolve path with
  | error fault => rfl
  | ok place =>
      have hplace := h place (mem_route_of_resolve hresolve)
      simp only [bind, Except.bind, hplace]

theorem readText_congr {path : String} (hwd : changed.workingDirectory = fs.workingDirectory)
    (hprocess : changed.process = fs.process) (h : ∀ q ∈ fs.route path, changed.at? q = fs.at? q) :
    changed.readText path = fs.readText path := by
  simp only [readText, entry_congr hwd hprocess h, readEntry, hprocess]

end PluginHost.FileSystem
