import PluginHost.Proofs.Loader.References
import PluginHost.Proofs.Loader.Settling
import PluginHost.Proofs.Results
import PluginHost.Proofs.Text.Pieces
import PluginHost.Proofs.Text.Utf8

/-! # The reasons of factories

A reason goes through memory, where it has to end at its first byte 0. It comes out as it went in,
but for a space where there was a NUL character, and the load that ran the factory reports it. -/

namespace PluginHost

variable {σ : Type}

/-- A reason with a space in the place of each NUL character. -/
def plainReason (reason : String) : String :=
  String.ofList (reason.toList.map fun c => if c = '\x00' then ' ' else c)

/-- How a load ends whose factory fails with a reason, and what becomes of its reference. -/
structure FailsWithReason (backend : Backend σ) (r : LoadRequest σ) (c : Course σ)
    (reason : String) (report : LoadReport σ) : Prop where
  unknown : reason = "" → report.result = .error (.unknownInitError r.name)
  failed : reason ≠ "" →
    report.result = .error (.factoryFailed r.name (plainReason reason)) ∧
      (plainReason reason).length = reason.length
  /-- A library that this load mapped is never unmapped. -/
  kept : c.resident = false → report.steps = .probed r.path false ::
        (if r.options.checked then [.vetted r.path r.options.rules.owner (.ok ())] else []) ++
      [.mapped r.path (.ok ()), .instantiated r.path true, .kept r.path] ∧
    report.state = backend.keep r.path c.ran
  released : c.resident = true →
    report.steps = [.probed r.path true, .instantiated r.path true, .released r.path] ∧
      report.state = backend.release r.path c.ran

/-! ## Through memory -/

theorem toList_plainReason (reason : String) : (plainReason reason).toList =
    reason.toList.map fun c => if c = '\x00' then ' ' else c := by
  rw [plainReason, String.toList_ofList]

theorem length_plainReason (reason : String) :
    (plainReason reason).length = reason.length := by
  rw [← String.length_toList, toList_plainReason, List.length_map, String.length_toList]

/-- No reason is lost, even if it is made of NUL characters only. -/
theorem plainReason_ne_empty {reason : String} (h : reason ≠ "") : plainReason reason ≠ "" := by
  intro hplain
  have hlength := length_plainReason reason
  rw [hplain] at hlength
  exact h (String.length_eq_zero_iff.mp hlength.symm)

theorem nul_not_mem_plainReason (reason : String) : '\x00' ∉ (plainReason reason).toList := by
  rw [toList_plainReason, List.mem_map]
  rintro ⟨c, _, hc⟩
  split at hc
  · cases hc
  · contradiction

theorem replaceAll_nul (reason : String) :
    Text.replaceAll "\x00" " " reason = plainReason reason :=
  congrArg String.ofList (Text.replaceFrom_singleton '\x00' ' ' reason.toList)

/-- A text without byte 0 is read up to its end. -/
theorem readTerminated_append {text : String} (h : 0 ∉ Text.bytes text) :
    readTerminated (Text.bytes text ++ [0]) = text := by
  have hrun : ∀ b ∈ Text.bytes text, decide (b ≠ 0) = true := by
    intro b hb
    refine decide_eq_true ?_
    rintro rfl
    exact h hb
  rw [readTerminated, List.takeWhile_append_of_pos hrun]
  simp [Text.decode_bytes]

/-- What is taken from a slot is the reason that was left there, in plain form. -/
theorem take?_set_empty (reason : String) : (ReasonSlot.empty.set reason).take? =
    if reason = "" then none else some (plainReason reason) := by
  by_cases hempty : reason = ""
  · simp [ReasonSlot.set, ReasonSlot.take?, hempty]
  · have hzero : 0 ∉ Text.bytes (plainReason reason) := by
      rw [Text.zero_mem_bytes_iff]
      exact nul_not_mem_plainReason reason
    simp [ReasonSlot.set, ReasonSlot.take?, hempty, replaceAll_nul, terminated?, hzero,
      readTerminated_append, plainReason_ne_empty hempty]

/-- A factory gives the instance that its constructor gives, or leaves its reason. -/
theorem exportFactory_eq (constructor : Except String Plugin) : exportFactory constructor =
    constructor.mapError fun reason =>
      if reason = "" then none else some (plainReason reason) := by
  cases constructor with
  | ok plugin => rfl
  | error reason => exact congrArg Except.error (take?_set_empty reason)

/-! ## Through a load -/

section

variable {r : LoadRequest σ} {c : Course σ} {reason : String}

theorem fails_of_reason (hf : c.factory = .ok (exportFactory (.error reason))) :
    Stage.outcome.Fails r c (if reason = "" then .unknownInitError r.name
      else .factoryFailed r.name (plainReason reason)) := by
  rw [exportFactory_eq, mapError_error] at hf
  split
  · next hempty =>
    rw [if_pos hempty] at hf
    exact .noReason hf
  · next hempty =>
    rw [if_neg hempty] at hf
    exact .reason hf

/-- What is done before the factory is looked up. -/
theorem steps_of_opened (h : Opens r c) : Stage.symbol.before.flatMap (Stage.steps r c) =
    if c.resident then [.probed r.path true]
    else .probed r.path false ::
      (if r.options.checked then [.vetted r.path r.options.rules.owner (.ok ())] else []) ++
      [.mapped r.path (.ok ())] := by
  have hbefore : Stage.symbol.before = [.name, .probe, .vetting, .mapping] := rfl
  rw [hbefore]
  rcases h with hresident | ⟨hcleared, hmapped⟩
  · simp [Stage.steps, hresident]
  · cases hresident : c.resident with
    | true => simp [Stage.steps, hresident]
    | false =>
        rcases hcleared with hc | hv
        · simp [Stage.steps, hresident, hc, hmapped]
        · cases hc : r.options.checked <;> simp [Stage.steps, hresident, hc, hv, hmapped]

theorem Staged.failsWithReason {backend : Backend σ} {initial : σ} {report : LoadReport σ}
    (h : Staged backend r initial c report) (hname : r.name ≠ "") (hopened : Opens r c)
    (hf : c.factory = .ok (exportFactory (.error reason))) :
    FailsWithReason backend r c reason report := by
  have hfirst : Stage.FailsFirst r c .outcome _ :=
    ⟨entered_outcome hname hopened hf, fails_of_reason hf⟩
  have hresult := (h.error_iff _).mpr ⟨_, hfirst⟩
  obtain ⟨hsteps, hstate⟩ := h.failed _ _ hfirst
  have hlast : Stage.symbol.steps r c =
      [.instantiated r.path true, disposal r.path c.residency] := by
    rw [Stage.steps, hf]
  have hafter : Stage.symbol.state backend r initial c =
      backend.dispose r.path c.ran c.residency := by
    simp only [Stage.state, hf]
  rw [steps_through_late (by simp), List.flatMap_append, steps_of_opened hopened,
    List.flatMap_singleton, hlast] at hsteps
  rw [state_late (by simp), hafter] at hstate
  constructor
  case unknown =>
    intro hempty
    rw [hresult, if_pos hempty]
  case failed =>
    intro hempty
    rw [hresult, if_neg hempty]
    exact ⟨rfl, length_plainReason reason⟩
  case kept =>
    intro hresident
    have hresidency : c.residency = .keptResident := by simp [Course.residency, hresident]
    rw [hresidency] at hsteps hstate
    exact ⟨by simpa [hresident, disposal] using hsteps, hstate⟩
  case released =>
    intro hresident
    have hresidency : c.residency = .released := by simp [Course.residency, hresident]
    rw [hresidency] at hsteps hstate
    exact ⟨by simpa [hresident, disposal] using hsteps, hstate⟩

end

/-- A load whose factory fails with a reason reports the reason, with spaces for its NUL characters
and otherwise as it is, or that there is none. It keeps a library that it mapped, and gives its
reference back if the library was mapped before. -/
theorem load_fails_with_reason (r : LoadRequest σ) (backend : Backend σ) (state : σ)
    (reason : String) (hname : r.name ≠ "") (hopened : Opens r (r.course backend state))
    (hfactory : (r.course backend state).factory = .ok (exportFactory (.error reason))) :
    FailsWithReason backend r (r.course backend state) reason
      (PluginLoader.load ⟨r.directory, backend⟩ r.files r.name r.options state) :=
  (load_rule ⟨r.directory, backend⟩ r.files r.name r.options state).ends.staged.failsWithReason
    hname hopened hfactory

/-- A reason of one NUL character, where the library is mapped by the load and where it was mapped
before. -/
theorem nul_reason_fails_load :
    let backend := Backend.counting fun _ => some (exportFactory (.error "\x00"))
    let options : LoadOptions (String → Nat) := ⟨false, none, ⟨none, none⟩⟩
    let r : LoadRequest (String → Nat) :=
      ⟨.holding [] ⟨0, 0, []⟩, "/plugins", "vpn.so", options⟩
    let fresh := r.course backend fun _ => 0
    let resident := r.course backend fun _ => 1
    r.name ≠ "" ∧ Opens r fresh ∧ Opens r resident ∧
      fresh.factory = .ok (exportFactory (.error "\x00")) ∧
      resident.factory = .ok (exportFactory (.error "\x00")) ∧
      FailsWithReason backend r fresh "\x00"
        (PluginLoader.load ⟨r.directory, backend⟩ r.files r.name options fun _ => 0) ∧
      FailsWithReason backend r resident "\x00"
        (PluginLoader.load ⟨r.directory, backend⟩ r.files r.name options fun _ => 1) := by
  intro backend options r fresh resident
  have hname : r.name ≠ "" := by simp [r]
  have hfresh : Opens r fresh := .inr ⟨.inl rfl, rfl⟩
  have hresident : Opens r resident := .inl rfl
  exact ⟨hname, hfresh, hresident, rfl, rfl,
    load_fails_with_reason r backend _ "\x00" hname hfresh rfl,
    load_fails_with_reason r backend _ "\x00" hname hresident rfl⟩

end PluginHost
