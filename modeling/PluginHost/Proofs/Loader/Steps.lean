import Mathlib.Data.List.Basic
import PluginHost.Loader.Load

/-! # What one load does

Each way through a load is a rule: how it comes by a reference to a library, if it does, and what
the factory gives. Every property of loads is a case analysis of the rules. -/

namespace PluginHost

variable {σ : Type}

/-! ## Rules -/

/-- A file that is not mapped yet is vetted, or that is waived. -/
inductive Clears (fs : FileSystem) (options : LoadOptions σ) (path : String) (probed : σ) :
    List LoadStep → σ → Prop where
  | vetted (cleared) (hc : options.checked = true)
      (hv : vet fs options.rules path probed = (.ok (), cleared)) :
      Clears fs options path probed [.vetted path options.rules.owner (.ok ())] cleared
  | waived (hc : options.checked = false) : Clears fs options path probed [] probed

/-- A load comes by a reference to a library that is mapped already, or maps it. -/
inductive Reaches (backend : Backend σ) (fs : FileSystem) (options : LoadOptions σ)
    (path : String) (state : σ) : Residency → List LoadStep → σ → Prop where
  | resident (probed) (hp : backend.probe path state = (true, probed)) :
      Reaches backend fs options path state .released [.probed path true] probed
  | mapped (probed clearance cleared reached) (hp : backend.probe path state = (false, probed))
      (hc : Clears fs options path probed clearance cleared)
      (hm : backend.map path cleared = (.ok (), reached)) :
      Reaches backend fs options path state .keptResident
        (.probed path false :: clearance ++ [.mapped path (.ok ())]) reached

/-- How a load is done with its reference once the factory has run. -/
def disposal (path : String) : Residency → LoadStep
  | .released => .released path
  | _ => .kept path

def Backend.dispose (backend : Backend σ) (path : String) (state : σ) : Residency → σ
  | .released => backend.release path state
  | _ => backend.keep path state

inductive LoadRule (backend : Backend σ) (fs : FileSystem) (name path : String)
    (options : LoadOptions σ) (state : σ) : LoadReport σ → Prop where
  | nameless (h : name = "") :
      LoadRule backend fs name path options state
        ⟨[], .error (.loadError "" "empty plugin name"), state⟩
  | refused (probed e after) (hn : name ≠ "") (hp : backend.probe path state = (false, probed))
      (hc : options.checked = true) (hv : vet fs options.rules path probed = (.error e, after)) :
      LoadRule backend fs name path options state
        ⟨[.probed path false, .vetted path options.rules.owner (.error e)], .error e, after⟩
  | unmapped (probed clearance cleared reason after) (hn : name ≠ "")
      (hp : backend.probe path state = (false, probed))
      (hc : Clears fs options path probed clearance cleared)
      (hm : backend.map path cleared = (.error reason, after)) :
      LoadRule backend fs name path options state
        ⟨.probed path false :: clearance ++ [.mapped path (.error reason)],
          .error (.loadError name reason), after⟩
  | withoutFactory (residency steps reached reason after) (hn : name ≠ "")
      (hr : Reaches backend fs options path state residency steps reached)
      (hi : backend.instantiate path reached = (.error reason, after)) :
      LoadRule backend fs name path options state
        ⟨steps ++ [.instantiated path false, .released path],
          .error (.loadError name ("failed to resolve the plugin factory: " ++ reason)),
          backend.release path after⟩
  | ran (residency steps reached outcome after) (hn : name ≠ "")
      (hr : Reaches backend fs options path state residency steps reached)
      (hi : backend.instantiate path reached = (.ok outcome, after)) :
      LoadRule backend fs name path options state
        ⟨steps ++ [.instantiated path true, disposal path residency],
          welcome name path options.service residency outcome,
          backend.dispose path after residency⟩

/-! ## Every load follows a rule -/

section

variable {backend : Backend σ} {fs : FileSystem} {name path : String} {options : LoadOptions σ}
  {state : σ}

theorem useModule_rule {residency : Residency} {steps : List LoadStep} {reached : σ}
    (hn : name ≠ "") (hr : Reaches backend fs options path state residency steps reached) :
    LoadRule backend fs name path options state
      (useModule backend options name path residency steps reached) := by
  unfold useModule
  rcases hi : backend.instantiate path reached with ⟨reason | outcome, after⟩
  · exact .withoutFactory residency steps reached reason after hn hr hi
  · have hran := LoadRule.ran residency steps reached outcome after hn hr hi
    cases hr with
    | resident => exact hran
    | mapped => exact hran

theorem mapModule_rule {probed : σ} {clearance : List LoadStep} {cleared : σ} (hn : name ≠ "")
    (hp : backend.probe path state = (false, probed))
    (hc : Clears fs options path probed clearance cleared) :
    LoadRule backend fs name path options state
      (mapModule backend options name path (.probed path false :: clearance) cleared) := by
  unfold mapModule
  rcases hm : backend.map path cleared with ⟨reason | u, after⟩
  · exact .unmapped probed clearance cleared reason after hn hp hc hm
  · exact useModule_rule hn (.mapped probed clearance cleared after hp hc hm)

end

theorem load_rule (loader : PluginLoader σ) (fs : FileSystem) (name : String)
    (options : LoadOptions σ) (state : σ) :
    LoadRule loader.backend fs name (resolveName loader.directory name options.checked) options
      state (loader.load fs name options state) := by
  by_cases hn : name = ""
  · simpa [PluginLoader.load, hn] using LoadRule.nameless hn
  · have hne : name.isEmpty = false := by simpa using hn
    simp only [PluginLoader.load, hne, Bool.false_eq_true, if_false]
    generalize resolveName loader.directory name options.checked = path
    rcases hp : loader.backend.probe path state with ⟨_ | _, probed⟩
    · by_cases hc : options.checked = true
      · simp only [hc, if_true]
        rcases hv : vet fs options.rules path probed with ⟨e | u, cleared⟩
        · exact .refused probed e cleared hn hp hc hv
        · exact mapModule_rule hn hp (.vetted cleared hc hv)
      · simp only [hc, Bool.false_eq_true, if_false]
        exact mapModule_rule hn hp (.waived (by simpa using hc))
    · exact useModule_rule hn (.resident probed hp)

theorem LoadRequest.perform_rule (r : LoadRequest σ) (backend : FileSystem → Backend σ)
    (state : σ) :
    LoadRule (backend r.files) r.files r.name r.path r.options state (r.perform backend state) :=
  load_rule ⟨r.directory, backend r.files⟩ r.files r.name r.options state

/-! ## Where the steps of a load stand -/

section

variable {backend : Backend σ} {fs : FileSystem} {name path : String} {options : LoadOptions σ}
  {state : σ}

/-- Clearing a file leaves no step but a vetting that it passed. -/
theorem Clears.not_mem {probed cleared : σ} {clearance : List LoadStep} {step : LoadStep}
    (h : Clears fs options path probed clearance cleared)
    (hs : step ≠ .vetted path options.rules.owner (.ok ())) : step ∉ clearance := by
  cases h with
  | vetted => simpa using hs
  | waived => simp

theorem not_mem_disposal {path : String} {residency : Residency} {step : LoadStep}
    (hr : step ≠ .released path) (hk : step ≠ .kept path) : step ∉ [disposal path residency] := by
  cases residency with
  | released => simpa [disposal] using hr
  | keptResident => simpa [disposal] using hk
  | builtin => simpa [disposal] using hk

section

variable {residency : Residency} {steps : List LoadStep} {reached : σ}

theorem Reaches.not_instantiated
    (h : Reaches backend fs options path state residency steps reached) (f : String)
    (ran : Bool) : .instantiated f ran ∉ steps := by
  cases h with
  | resident => simp
  | mapped probed clearance cleared reached hp hc hm =>
      simpa using hc.not_mem (by simp)

theorem Reaches.not_refused
    (h : Reaches backend fs options path state residency steps reached) (f : String)
    (owner : Option Nat) (e : HostError) : .vetted f owner (.error e) ∉ steps := by
  cases h with
  | resident => simp
  | mapped probed clearance cleared reached hp hc hm =>
      simpa using hc.not_mem (by simp)

theorem Reaches.probed_first {before after tail : List LoadStep} {f : String}
    (h : Reaches backend fs options path state residency steps reached)
    (htail : .probed f true ∉ tail) (hs : steps ++ tail = before ++ .probed f true :: after) :
    before = [] ∧ f = path ∧ (backend.probe path state).1 = true := by
  cases h with
  | resident probed hp =>
      obtain ⟨rfl, hf, _⟩ := (List.append_cons_inj_of_notMem List.not_mem_nil htail).mp hs
      cases hf
      exact ⟨rfl, rfl, by rw [hp]⟩
  | mapped probed clearance cleared reached hp hc hm =>
      have hmem : .probed f true ∈
          .probed path false :: clearance ++ [.mapped path (.ok ())] ++ tail := by
        rw [hs]
        simp
      have hno : .probed f true ∉ clearance := hc.not_mem (by simp)
      simp [hno, htail] at hmem

/-- A file is mapped right after it was cleared. -/
theorem Reaches.clears_of_mapped {before after tail : List LoadStep} {f : String}
    {result : Except String Unit}
    (h : Reaches backend fs options path state residency steps reached)
    (htail : .mapped f result ∉ tail) (hs : steps ++ tail = before ++ .mapped f result :: after) :
    f = path ∧ ∃ probed clearance cleared, backend.probe path state = (false, probed) ∧
      Clears fs options path probed clearance cleared ∧
      before = .probed path false :: clearance := by
  cases h with
  | resident probed hp =>
      have hmem : .mapped f result ∈ [.probed path true] ++ tail := by simp [hs]
      simp [htail] at hmem
  | mapped probed clearance cleared reached hp hc hm =>
      have hno : .mapped f result ∉ .probed path false :: clearance := by
        simpa using hc.not_mem (by simp)
      rw [List.append_assoc, List.singleton_append] at hs
      obtain ⟨rfl, hf, _⟩ := (List.append_cons_inj_of_notMem hno htail).mp hs
      cases hf
      exact ⟨rfl, probed, clearance, cleared, hp, hc, rfl⟩

end

variable {report : LoadReport σ}

/-- A library is found mapped in the first step of a load or not at all. -/
theorem LoadRule.probed_first (h : LoadRule backend fs name path options state report)
    {before after : List LoadStep} {f : String}
    (hs : report.steps = before ++ .probed f true :: after) :
    before = [] ∧ f = path ∧ (backend.probe path state).1 = true := by
  have hmem : .probed f true ∈ report.steps := by simp [hs]
  cases h with
  | nameless => simp at hmem
  | refused => simp at hmem
  | unmapped probed clearance cleared reason after hn hp hc hm =>
      have hno : .probed f true ∉ clearance := hc.not_mem (by simp)
      simp [hno] at hmem
  | withoutFactory residency steps reached reason after hn hr hi =>
      exact hr.probed_first (by simp) hs
  | ran residency steps reached outcome after hn hr hi =>
      have hno : .probed f true ∉ [disposal path residency] := not_mem_disposal (by simp) (by simp)
      exact hr.probed_first (by simpa using hno) hs

/-- A factory is looked up right after the load came by its reference. -/
theorem LoadRule.reaches_of_instantiated (h : LoadRule backend fs name path options state report)
    {before after : List LoadStep} {f : String} {ran : Bool}
    (hs : report.steps = before ++ .instantiated f ran :: after) :
    f = path ∧ ∃ residency reached,
      Reaches backend fs options path state residency before reached := by
  have hmem : .instantiated f ran ∈ report.steps := by simp [hs]
  cases h with
  | nameless => simp at hmem
  | refused => simp at hmem
  | unmapped probed clearance cleared reason after hn hp hc hm =>
      have hno : .instantiated f ran ∉ clearance := hc.not_mem (by simp)
      simp [hno] at hmem
  | withoutFactory residency steps reached reason after hn hr hi =>
      obtain ⟨rfl, hf, _⟩ := (List.append_cons_inj_of_notMem (hr.not_instantiated f ran)
        (by simp)).mp hs
      cases hf
      exact ⟨rfl, residency, reached, hr⟩
  | ran residency steps reached outcome after hn hr hi =>
      obtain ⟨rfl, hf, _⟩ := (List.append_cons_inj_of_notMem (hr.not_instantiated f ran)
        (not_mem_disposal (by simp) (by simp))).mp hs
      cases hf
      exact ⟨rfl, residency, reached, hr⟩

theorem LoadRule.clears_of_mapped (h : LoadRule backend fs name path options state report)
    {before after : List LoadStep} {f : String} {result : Except String Unit}
    (hs : report.steps = before ++ .mapped f result :: after) :
    f = path ∧ ∃ probed clearance cleared, backend.probe path state = (false, probed) ∧
      Clears fs options path probed clearance cleared ∧
      before = .probed path false :: clearance := by
  have hmem : .mapped f result ∈ report.steps := by simp [hs]
  cases h with
  | nameless => simp at hmem
  | refused => simp at hmem
  | unmapped probed clearance cleared reason after hn hp hc hm =>
      have hno : .mapped f result ∉ .probed path false :: clearance := by
        simpa using hc.not_mem (by simp)
      obtain ⟨rfl, hf, _⟩ := (List.append_cons_inj_of_notMem hno List.not_mem_nil).mp hs
      cases hf
      exact ⟨rfl, probed, clearance, cleared, hp, hc, rfl⟩
  | withoutFactory residency steps reached reason after hn hr hi =>
      exact hr.clears_of_mapped (by simp) hs
  | ran residency steps reached outcome after hn hr hi =>
      have hno : .mapped f result ∉ [disposal path residency] :=
        not_mem_disposal (by simp) (by simp)
      exact hr.clears_of_mapped (by simpa using hno) hs

/-- A load in which a file is refused ends there. -/
theorem LoadRule.eq_of_refused (h : LoadRule backend fs name path options state report)
    {f : String} {owner : Option Nat} {e : HostError}
    (hmem : .vetted f owner (.error e) ∈ report.steps) :
    ∃ probed after, backend.probe path state = (false, probed) ∧
      vet fs options.rules path probed = (.error e, after) ∧
      report = ⟨[.probed path false, .vetted path options.rules.owner (.error e)], .error e,
        after⟩ := by
  cases h with
  | nameless => simp at hmem
  | refused probed reason after hn hp hc hv =>
      have hreason : e = reason := by
        simp only [List.mem_cons, LoadStep.vetted.injEq, Except.error.injEq, reduceCtorEq,
          List.not_mem_nil, or_false, false_or] at hmem
        exact hmem.2.2
      subst hreason
      exact ⟨probed, after, hp, hv, rfl⟩
  | unmapped probed clearance cleared reason after hn hp hc hm =>
      have hno : .vetted f owner (.error e) ∉ clearance := hc.not_mem (by simp)
      simp [hno] at hmem
  | withoutFactory residency steps reached reason after hn hr hi =>
      simp [hr.not_refused] at hmem
  | ran residency steps reached outcome after hn hr hi =>
      have hno : .vetted f owner (.error e) ∉ [disposal path residency] :=
        not_mem_disposal (by simp) (by simp)
      rcases List.mem_append.mp hmem with hin | hin
      · exact (hr.not_refused f owner e hin).elim
      · simp [List.mem_singleton.not.mp hno] at hin

end

/-! ## Loads one after the other -/

theorem journal_append (backend : FileSystem → Backend σ) (state : σ)
    (loads more : List (LoadRequest σ)) :
    journal backend state (loads ++ more) =
      journal backend state loads ++ journal backend (stateAfter backend state loads) more := by
  induction loads generalizing state with
  | nil => rfl
  | cons r rest ih =>
      simp only [List.cons_append, journal, stateAfter, ih, List.append_assoc]

end PluginHost
