import Mathlib.Data.List.Induction
import PluginHost.Proofs.Loader.Steps

/-! # References to libraries

The references that loads hold can be read off their steps. A journal is plausible if a library is
only found mapped while references to it are held; a backend that counts references has no other
journals. -/

namespace PluginHost

/-! ## Counting -/

def oneMore (counts : String → Nat) (path : String) : String → Nat :=
  fun p => if p = path then counts p + 1 else counts p

def oneLess (counts : String → Nat) (path : String) : String → Nat :=
  fun p => if p = path then counts p - 1 else counts p

/-- The references to each file after a step. -/
def LoadStep.recount (counts : String → Nat) : LoadStep → String → Nat
  | .probed path true => oneMore counts path
  | .mapped path (.ok ()) => oneMore counts path
  | .released path => oneLess counts path
  | _ => counts

/-- The references to each file that are held after steps, if there were none before. -/
def references (log : List LoadStep) : String → Nat :=
  log.foldl LoadStep.recount fun _ => 0

/-- A file is only found mapped while references to it are held. -/
def ReportsHeld (log : List LoadStep) : Prop :=
  ∀ before path after, log = before ++ .probed path true :: after → 0 < references before path

theorem references_append (log steps : List LoadStep) :
    references (log ++ steps) = steps.foldl LoadStep.recount (references log) := by
  rw [references, List.foldl_append, references]

theorem references_snoc (log : List LoadStep) (step : LoadStep) :
    references (log ++ [step]) = step.recount (references log) :=
  references_append log [step]

theorem ReportsHeld.of_append {log more : List LoadStep} (h : ReportsHeld (log ++ more)) :
    ReportsHeld log := by
  rintro before path after rfl
  exact h before path (after ++ more) (by simp)

theorem ReportsHeld.append {log steps : List LoadStep} (h : ReportsHeld log)
    (hsteps : ∀ before path after, steps = before ++ .probed path true :: after →
      0 < references (log ++ before) path) : ReportsHeld (log ++ steps) := by
  intro before path after hsplit
  rcases List.append_eq_append_iff.mp hsplit with ⟨more, rfl, hmore⟩ | ⟨more, hlog, hmore⟩
  · exact hsteps more path after hmore
  · cases more with
    | nil =>
        have hbefore : before = log := by simpa using hlog.symm
        rw [hbefore, ← List.append_nil log]
        exact hsteps [] path after (by simpa using hmore.symm)
    | cons step rest =>
        simp only [List.cons_append, List.cons.injEq] at hmore
        obtain ⟨rfl, _⟩ := hmore
        exact h before path rest hlog

theorem recount_pos {counts : String → Nat} {path : String} {step : LoadStep}
    (h : 0 < step.recount counts path) :
    0 < counts path ∨ step = .probed path true ∨ step = .mapped path (.ok ()) := by
  have hmore : ∀ p, 0 < oneMore counts p path → 0 < counts path ∨ p = path := by
    intro p hp
    by_cases heq : p = path
    · exact .inr heq
    · exact .inl (by simpa [oneMore, Ne.symm heq] using hp)
  cases step with
  | probed p resident =>
      cases resident with
      | false => exact .inl h
      | true =>
          rcases hmore p h with hpos | rfl
          · exact .inl hpos
          · exact .inr (.inl rfl)
  | mapped p result =>
      cases result with
      | error reason => exact .inl h
      | ok u =>
          rcases hmore p h with hpos | rfl
          · exact .inl hpos
          · exact .inr (.inr rfl)
  | released p =>
      refine .inl (Nat.lt_of_lt_of_le h ?_)
      simp only [LoadStep.recount, oneLess]
      split <;> omega
  | vetted => exact .inl h
  | instantiated => exact .inl h
  | kept => exact .inl h

/-- A reference can only come from a mapping in the end. -/
theorem ReportsHeld.mapped {log : List LoadStep} (h : ReportsHeld log) {path : String}
    (hheld : 0 < references log path) : .mapped path (.ok ()) ∈ log := by
  induction log using List.reverseRecOn with
  | nil => simp [references] at hheld
  | append_singleton log step ih =>
      rw [references_snoc] at hheld
      have hbefore : 0 < references log path → .mapped path (.ok ()) ∈ log ++ [step] :=
        fun hpos => List.mem_append_left _ (ih h.of_append hpos)
      rcases recount_pos hheld with hpos | rfl | rfl
      · exact hbefore hpos
      · exact hbefore (h log path [] rfl)
      · simp

/-! ## Backends that count -/

variable {σ : Type}

/-- The backend counts references under the names of files. A library is mapped while there are
references to it. -/
structure Backend.Counts (backend : Backend σ) (count : σ → String → Nat) : Prop where
  probe_iff (path s) : (backend.probe path s).1 = true ↔ 0 < count s path
  probe_resident (path s) : (backend.probe path s).1 = true →
    count (backend.probe path s).2 = oneMore (count s) path
  probe_absent (path s) : (backend.probe path s).1 = false →
    count (backend.probe path s).2 = count s
  map_ok (path s) : (backend.map path s).1 = .ok () →
    count (backend.map path s).2 = oneMore (count s) path
  map_error (path s reason) : (backend.map path s).1 = .error reason →
    count (backend.map path s).2 = count s
  instantiate (path s) : count (backend.instantiate path s).2 = count s
  release (path s) : count (backend.release path s) = oneLess (count s) path
  keep (path s) : count (backend.keep path s) = count s

/-- A view of the state that a caller's own check of files leaves as it is. -/
def VettingRules.Leaves {α : Type} (rules : VettingRules σ) (view : σ → α) : Prop :=
  ∀ policy, rules.policy = some policy → ∀ path status s, view (policy path status s).2 = view s

theorem vet_leaves {α : Type} {rules : VettingRules σ} {view : σ → α} (h : rules.Leaves view)
    (fs : FileSystem) (path : String) (s : σ) : view (vet fs rules path s).2 = view s := by
  unfold vet
  cases vetStatus fs rules.owner path with
  | error e => rfl
  | ok status =>
      cases hp : rules.policy with
      | none => rfl
      | some policy => exact h policy hp path status s

/-- A machine on which every name is that of a library of its own, if of any. -/
def Backend.counting (library : String → Option FactoryOutcome) : Backend (String → Nat) where
  probe path counts := if 0 < counts path then (true, oneMore counts path) else (false, counts)
  map path counts :=
    if (library path).isSome then (.ok (), oneMore counts path) else (.error "missing", counts)
  instantiate path counts :=
    match library path with
    | some outcome => (.ok outcome, counts)
    | none => (.error "missing", counts)
  release path counts := oneLess counts path
  keep _ counts := counts

theorem counting_counts (library : String → Option FactoryOutcome) :
    (Backend.counting library).Counts id where
  probe_iff path s := by
    simp only [Backend.counting]
    split <;> simp_all
  probe_resident path s := by
    simp only [Backend.counting]
    split <;> simp_all
  probe_absent path s := by
    simp only [Backend.counting]
    split <;> simp_all
  map_ok path s := by
    simp only [Backend.counting]
    split <;> simp_all
  map_error path s reason := by
    simp only [Backend.counting]
    split <;> simp_all
  instantiate path s := by
    simp only [Backend.counting]
    split <;> rfl
  release _ _ := rfl
  keep _ _ := rfl

section

variable {backend : Backend σ} {count : σ → String → Nat} {fs : FileSystem}
  {options : LoadOptions σ} {name path : String} {state : σ}

theorem Clears.recount {probed cleared : σ} {clearance : List LoadStep}
    (h : Clears fs options path probed clearance cleared) (hrules : options.rules.Leaves count) :
    count cleared = clearance.foldl LoadStep.recount (count probed) := by
  cases h with
  | vetted cleared hc hv => simpa [hv, LoadStep.recount] using vet_leaves hrules fs path probed
  | waived => rfl

theorem Reaches.recount {residency : Residency} {steps : List LoadStep} {reached : σ}
    (h : Reaches backend fs options path state residency steps reached)
    (hcounts : backend.Counts count) (hrules : options.rules.Leaves count) :
    count reached = steps.foldl LoadStep.recount (count state) := by
  cases h with
  | resident probed hp =>
      simpa [hp, LoadStep.recount] using hcounts.probe_resident path state
  | mapped probed clearance cleared reached hp hc hm =>
      have hprobed := hcounts.probe_absent path state
      have hmapped := hcounts.map_ok path cleared
      rw [hp] at hprobed
      rw [hm] at hmapped
      simp [LoadStep.recount, hmapped rfl, hc.recount hrules, hprobed rfl]

/-- The counts of a backend follow the steps of a load. -/
theorem LoadRule.recount {report : LoadReport σ}
    (h : LoadRule backend fs name path options state report) (hcounts : backend.Counts count)
    (hrules : options.rules.Leaves count) :
    count report.state = report.steps.foldl LoadStep.recount (count state) := by
  cases h with
  | nameless => rfl
  | refused probed e after hn hp hc hv =>
      have hprobed := hcounts.probe_absent path state
      have hvetted := vet_leaves hrules fs path probed
      rw [hp] at hprobed
      rw [hv] at hvetted
      simp [LoadStep.recount, hvetted, hprobed rfl]
  | unmapped probed clearance cleared reason after hn hp hc hm =>
      have hprobed := hcounts.probe_absent path state
      have hmapped := hcounts.map_error path cleared reason
      rw [hp] at hprobed
      rw [hm] at hmapped
      simp [LoadStep.recount, hmapped rfl, hc.recount hrules, hprobed rfl]
  | withoutFactory residency steps reached reason after hn hr hi =>
      have hlooked := hcounts.instantiate path reached
      rw [hi] at hlooked
      simp [LoadStep.recount, hcounts.release, hlooked, hr.recount hcounts hrules]
  | ran residency steps reached outcome after hn hr hi =>
      have hran := hcounts.instantiate path reached
      rw [hi] at hran
      have hreached := hr.recount hcounts hrules
      cases hr with
      | resident =>
          simp [LoadStep.recount, Backend.dispose, disposal, hcounts.release, hran, hreached]
      | mapped =>
          simp [LoadStep.recount, Backend.dispose, disposal, hcounts.keep, hran, hreached]

end

/-- A backend that counts references has plausible journals only, from any moment on at which its
counts are those of what was done before. -/
theorem reportsHeld_append_journal {backend : FileSystem → Backend σ} {count : σ → String → Nat}
    (hcounts : ∀ fs, (backend fs).Counts count) {loads : List (LoadRequest σ)}
    (hrules : ∀ r ∈ loads, r.options.rules.Leaves count) {log : List LoadStep} {state : σ}
    (hstate : count state = references log) (hlog : ReportsHeld log) :
    ReportsHeld (log ++ journal backend state loads) := by
  induction loads generalizing log state with
  | nil => simpa [journal] using hlog
  | cons r rest ih =>
      have hrule := r.perform_rule backend state
      have hafter := hrule.recount (hcounts r.files) (hrules r (by simp))
      rw [journal, ← List.append_assoc]
      refine ih (fun q hq => hrules q (by simp [hq])) ?_ ?_
      · rw [hafter, references_append, hstate]
      · refine hlog.append ?_
        intro before f after hs
        obtain ⟨rfl, rfl, hresident⟩ := hrule.probed_first hs
        rw [List.append_nil, ← hstate]
        exact ((hcounts r.files).probe_iff r.path state).mp hresident

theorem reportsHeld_journal {backend : FileSystem → Backend σ} {count : σ → String → Nat}
    (hcounts : ∀ fs, (backend fs).Counts count) {loads : List (LoadRequest σ)}
    (hrules : ∀ r ∈ loads, r.options.rules.Leaves count) {initial : σ}
    (hinitial : count initial = fun _ => 0) : ReportsHeld (journal backend initial loads) := by
  have hnil : ReportsHeld [] := by simp [ReportsHeld]
  exact reportsHeld_append_journal hcounts hrules hinitial hnil

end PluginHost
