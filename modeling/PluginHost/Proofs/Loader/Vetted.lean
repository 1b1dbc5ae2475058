import PluginHost.Proofs.Loader.References

/-! # Nothing runs unvetted

A library that is mapped already is not vetted again. That is safe over a whole sequence of checked
loads: whatever is found mapped was mapped by one of them, and vetted directly before that. -/

namespace PluginHost

variable {σ : Type}

/-- What a refused file leaves behind: the verdict, and everything as it was. -/
structure Refused (backend : Backend σ) (log : List LoadStep) (state : σ) (r : LoadRequest σ)
    (report : LoadReport σ) (f : String) (e : HostError) : Prop where
  verdict : (vet r.files r.options.rules f (backend.probe f state).2).1 = .error e
  result_eq : report.result = .error e
  not_mapped : ∀ g result, .mapped g result ∉ report.steps
  not_run : ∀ g ran, .instantiated g ran ∉ report.steps
  references_eq : references (log ++ report.steps) = references log
  /-- So is the set of mapped files, unless a caller's own check or an unanswered question changes
  it. -/
  resident_eq : ∀ resident : σ → String → Prop, r.options.rules.Leaves resident →
    (∀ path s, (backend.probe path s).1 = false →
      resident (backend.probe path s).2 = resident s) →
    resident report.state = resident state

/-- What a load runs and maps, given the steps that were taken before it. -/
structure Guarded (backend : Backend σ) (log : List LoadStep) (state : σ) (r : LoadRequest σ)
    (report : LoadReport σ) : Prop where
  /-- The library of a factory was mapped in this load or before it. -/
  mapped_of_run : ∀ before f ran after, report.steps = before ++ .instantiated f ran :: after →
    .mapped f (.ok ()) ∈ log ++ before
  /-- A file is mapped directly after it was not found mapped and passed the checks. -/
  vetted_of_mapped : ∀ before f result after, report.steps = before ++ .mapped f result :: after →
    before = [.probed f false, .vetted f r.options.rules.owner (.ok ())] ∧
      (backend.probe f state).1 = false ∧
      (vet r.files r.options.rules f (backend.probe f state).2).1 = .ok ()
  refused : ∀ f owner e, .vetted f owner (.error e) ∈ report.steps →
    Refused backend log state r report f e

theorem mapped_of_reaches {backend : Backend σ} {fs : FileSystem} {options : LoadOptions σ}
    {path : String} {state reached : σ} {residency : Residency} {log before : List LoadStep}
    (hr : Reaches backend fs options path state residency before reached)
    (hheld : ReportsHeld (log ++ before)) : .mapped path (.ok ()) ∈ log ++ before := by
  cases hr with
  | resident probed hp =>
      have hpos : 0 < references log path := hheld log path [] rfl
      exact List.mem_append_left _ (hheld.of_append.mapped hpos)
  | mapped probed clearance cleared reached hp hc hm => simp

theorem vetted_of_clears {fs : FileSystem} {options : LoadOptions σ} {path : String}
    {probed cleared : σ} {clearance : List LoadStep}
    (h : Clears fs options path probed clearance cleared) (hchecked : options.checked = true) :
    clearance = [.vetted path options.rules.owner (.ok ())] ∧
      (vet fs options.rules path probed).1 = .ok () := by
  cases h with
  | vetted cleared hc hv => exact ⟨rfl, by rw [hv]⟩
  | waived hc =>
      rw [hchecked] at hc
      cases hc

theorem refused_of_rule {backend : Backend σ} {state : σ} {r : LoadRequest σ}
    {report : LoadReport σ}
    (hrule : LoadRule backend r.files r.name r.path r.options state report)
    {f : String} {owner : Option Nat} {e : HostError}
    (hmem : .vetted f owner (.error e) ∈ report.steps) (log : List LoadStep) :
    Refused backend log state r report f e := by
  obtain ⟨probed, after, hp, hv, rfl⟩ := hrule.eq_of_refused hmem
  have hf : f = r.path := by
    simp only [List.mem_cons, LoadStep.vetted.injEq, reduceCtorEq, List.not_mem_nil, or_false,
      false_or] at hmem
    exact hmem.1
  subst hf
  constructor
  case verdict => rw [hp, hv]
  case result_eq => rfl
  case not_mapped => simp
  case not_run => simp
  case references_eq => simp [references_append, LoadStep.recount]
  case resident_eq =>
    intro resident hrules hprobe
    have hprobed := hprobe r.path state
    have hvetted := vet_leaves hrules r.files r.path probed
    rw [hp] at hprobed
    rw [hv] at hvetted
    exact hvetted.trans (hprobed rfl)

/-- In a sequence of checked loads, on machines that find a file mapped only while references to it
are held, every load is guarded. -/
theorem checked_loads_guarded (backend : FileSystem → Backend σ) (initial : σ)
    (loads : List (LoadRequest σ)) (hchecked : ∀ r ∈ loads, r.options.checked = true)
    (hheld : ReportsHeld (journal backend initial loads)) :
    ∀ earlier r later, loads = earlier ++ r :: later →
      Guarded (backend r.files) (journal backend initial earlier)
        (stateAfter backend initial earlier) r
        (r.perform backend (stateAfter backend initial earlier)) := by
  rintro earlier r later rfl
  rw [journal_append, journal, ← List.append_assoc] at hheld
  have hrule := r.perform_rule backend (stateAfter backend initial earlier)
  constructor
  case mapped_of_run =>
    intro before f ran after hs
    obtain ⟨rfl, residency, reached, hr⟩ := hrule.reaches_of_instantiated hs
    apply mapped_of_reaches hr
    have hload := hheld.of_append
    rw [hs, ← List.append_assoc] at hload
    exact hload.of_append
  case vetted_of_mapped =>
    intro before f result after hs
    obtain ⟨rfl, probed, clearance, cleared, hp, hc, rfl⟩ := hrule.clears_of_mapped hs
    obtain ⟨rfl, hv⟩ := vetted_of_clears hc (hchecked r (by simp))
    exact ⟨rfl, by rw [hp], by rw [hp]; exact hv⟩
  case refused =>
    intro f owner e hmem
    exact refused_of_rule hrule hmem (journal backend initial earlier)

theorem counted_loads_guarded :
    let files : FileSystem :=
      .holding [(["vpn.so"], .plainFile ByteArray.empty)] ⟨1000, 1000, []⟩
    let r : LoadRequest (String → Nat) := ⟨files, "/", "vpn.so", ⟨true, none, ⟨some 1000, none⟩⟩⟩
    let backend := fun _ : FileSystem => Backend.counting fun _ => some (.error none)
    (∀ q ∈ [r, r], q.options.checked = true) ∧
      ReportsHeld (journal backend (fun _ => 0) [r, r]) ∧
      ∀ earlier q later, [r, r] = earlier ++ q :: later →
        Guarded (backend q.files) (journal backend (fun _ => 0) earlier)
          (stateAfter backend (fun _ => 0) earlier) q
          (q.perform backend (stateAfter backend (fun _ => 0) earlier)) := by
  intro files r backend
  have hchecked : ∀ q ∈ [r, r], q.options.checked = true := by simp [r]
  have hrules : ∀ q ∈ [r, r], q.options.rules.Leaves id := by simp [r, VettingRules.Leaves]
  have hheld : ReportsHeld (journal backend (fun _ => 0) [r, r]) :=
    reportsHeld_journal (fun _ => counting_counts _) hrules rfl
  exact ⟨hchecked, hheld, checked_loads_guarded backend (fun _ => 0) [r, r] hchecked hheld⟩

end PluginHost
