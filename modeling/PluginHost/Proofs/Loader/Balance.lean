import PluginHost.Proofs.Loader.References

/-! # What loads leave mapped

A load takes one reference at most, looks the factory up while it holds the reference, and is done
with it in its last step. So the references to a file are as many after any sequence of loads as
before it, but for one that keeps a library mapped whose factory has run. -/

namespace PluginHost

/-! ## References taken and disposed of -/

/-- The file to which a step takes a reference. -/
def LoadStep.acquires? : LoadStep → Option String
  | .probed path true => some path
  | .mapped path (.ok ()) => some path
  | _ => none

/-- The file whose reference a step disposes of: it gives it back, or keeps it for good. -/
def LoadStep.disposes? : LoadStep → Option String
  | .released path => some path
  | .kept path => some path
  | _ => none

/-- The step looks no factory up and has nothing to do with references. -/
def LoadStep.isIdle : LoadStep → Bool
  | .probed _ resident => !resident
  | .vetted .. => true
  | .mapped _ (.error _) => true
  | _ => false

/-- A factory was found in a file and ran. -/
def ranFactory (steps : List LoadStep) (file : String) : Bool :=
  steps.any fun
    | .instantiated path ran => ran && path == file
    | _ => false

theorem ranFactory_append (steps more : List LoadStep) (file : String) :
    ranFactory (steps ++ more) file = (ranFactory steps file || ranFactory more file) :=
  List.any_append

/-- Every reference that steps take is disposed of once, and after it was taken. -/
inductive DisposedOnce : List LoadStep → Prop where
  | untouched {steps} (h : ∀ step ∈ steps, step.acquires? = none ∧ step.disposes? = none) :
      DisposedOnce steps
  | once {before taking between giving path}
      (hb : ∀ step ∈ before ++ between, step.acquires? = none ∧ step.disposes? = none)
      (ht : taking.acquires? = some path) (hg : giving.disposes? = some path) :
      DisposedOnce (before ++ taking :: (between ++ [giving]))

/-- What the steps of a load have to do with references. The reference is kept if the library was
not mapped before and its factory has run. -/
inductive ReferenceUse (path : String) (resident : Bool) : List LoadStep → Prop where
  | none {steps} (h : ∀ step ∈ steps, step.isIdle = true) : ReferenceUse path resident steps
  | once {before taking} (ran : Bool) (hb : ∀ step ∈ before, step.isIdle = true)
      (ht : taking.acquires? = some path) :
      ReferenceUse path resident (before ++ [taking, .instantiated path ran,
        if ran && !resident then .kept path else .released path])

section

variable {σ : Type} {backend : Backend σ} {fs : FileSystem} {options : LoadOptions σ}
  {name path : String} {state : σ}

theorem Clears.isIdle {probed cleared : σ} {clearance : List LoadStep}
    (h : Clears fs options path probed clearance cleared) :
    ∀ step ∈ .probed path false :: clearance, step.isIdle = true := by
  cases h with
  | vetted => simp [LoadStep.isIdle]
  | waived => simp [LoadStep.isIdle]

theorem Reaches.split {residency : Residency} {steps : List LoadStep} {reached : σ}
    (h : Reaches backend fs options path state residency steps reached) :
    ∃ before taking, steps = before ++ [taking] ∧ (∀ step ∈ before, step.isIdle = true) ∧
      taking.acquires? = some path ∧
      disposal path residency =
        if (backend.probe path state).1 then .released path else .kept path := by
  cases h with
  | resident probed hp => exact ⟨[], .probed path true, rfl, by simp, rfl, by simp [hp, disposal]⟩
  | mapped probed clearance cleared reached hp hc hm =>
      exact ⟨.probed path false :: clearance, .mapped path (.ok ()), rfl, hc.isIdle, rfl,
        by simp [hp, disposal]⟩

/-- Every load takes one reference at most, and is done with it at its end. -/
theorem LoadRule.referenceUse {report : LoadReport σ}
    (h : LoadRule backend fs name path options state report) :
    ReferenceUse path (backend.probe path state).1 report.steps := by
  cases h with
  | nameless => exact .none (by simp)
  | refused => exact .none (by simp [LoadStep.isIdle])
  | unmapped probed clearance cleared reason after hn hp hc hm =>
      refine .none ?_
      intro step hs
      rcases List.mem_append.mp hs with hs | hs
      · exact hc.isIdle step hs
      · rw [List.mem_singleton.mp hs, LoadStep.isIdle]
  | withoutFactory residency steps reached reason after hn hr hi =>
      obtain ⟨before, taking, rfl, hb, ht, _⟩ := hr.split
      rw [List.append_assoc]
      exact .once false hb ht
  | ran residency steps reached outcome after hn hr hi =>
      obtain ⟨before, taking, rfl, hb, ht, hd⟩ := hr.split
      have hgiving : disposal path residency =
          if true && !(backend.probe path state).1 then .kept path else .released path := by
        rw [hd]
        cases (backend.probe path state).1 <;> rfl
      rw [hgiving, List.append_assoc]
      exact .once true hb ht

end

theorem LoadStep.untouched_of_isIdle {step : LoadStep} (h : step.isIdle = true) :
    step.acquires? = none ∧ step.disposes? = none := by
  cases step with
  | probed path resident =>
      cases resident with
      | false => exact ⟨rfl, rfl⟩
      | true => cases h
  | vetted => exact ⟨rfl, rfl⟩
  | mapped path result =>
      cases result with
      | error reason => exact ⟨rfl, rfl⟩
      | ok u => cases h
  | instantiated => cases h
  | released => cases h
  | kept => cases h

theorem ReferenceUse.disposedOnce {path : String} {resident : Bool} {steps : List LoadStep}
    (h : ReferenceUse path resident steps) : DisposedOnce steps := by
  cases h with
  | none h => exact .untouched fun step hs => LoadStep.untouched_of_isIdle (h step hs)
  | @once before taking ran hb ht =>
      have hdisposed := @DisposedOnce.once before taking [.instantiated path ran]
        (if ran && !resident then .kept path else .released path) path
      refine hdisposed ?_ ht ?_
      · intro step hs
        rcases List.mem_append.mp hs with hs | hs
        · exact LoadStep.untouched_of_isIdle (hb step hs)
        · rw [List.mem_singleton.mp hs]
          exact ⟨rfl, rfl⟩
      · split <;> rfl

/-! ## Counts at every moment -/

theorem recount_of_isIdle {steps : List LoadStep} (h : ∀ step ∈ steps, step.isIdle = true)
    (counts : String → Nat) : steps.foldl LoadStep.recount counts = counts := by
  induction steps with
  | nil => rfl
  | cons step rest ih =>
      have hstep : step.recount counts = counts := by
        have hidle := h step (by simp)
        cases step with
        | probed path resident =>
            cases resident with
            | false => rfl
            | true => cases hidle
        | mapped path result =>
            cases result with
            | error reason => rfl
            | ok u => cases hidle
        | released => cases hidle
        | vetted => rfl
        | instantiated => rfl
        | kept => rfl
      rw [List.foldl_cons, hstep]
      exact ih fun later hs => h later (List.mem_cons_of_mem step hs)

theorem recount_of_acquires {step : LoadStep} {path : String} (h : step.acquires? = some path)
    (counts : String → Nat) : step.recount counts = oneMore counts path := by
  unfold LoadStep.acquires? at h
  split at h
  · cases h
    rfl
  · cases h
    rfl
  · cases h

theorem ranFactory_of_isIdle {steps : List LoadStep} (h : ∀ step ∈ steps, step.isIdle = true)
    (file : String) : ranFactory steps file = false := by
  rw [ranFactory, List.any_eq_false]
  intro step hs
  have hidle := h step hs
  cases step <;> simp_all [LoadStep.isIdle]

theorem ranFactory_of_acquires {step : LoadStep} {path : String}
    (h : step.acquires? = some path) (file : String) : ranFactory [step] file = false := by
  cases step <;> simp_all [LoadStep.acquires?, ranFactory]

theorem ranFactory_of_disposes {step : LoadStep} {path : String}
    (h : step.disposes? = some path) (file : String) : ranFactory [step] file = false := by
  cases step <;> simp_all [LoadStep.disposes?, ranFactory]

theorem oneLess_oneMore (counts : String → Nat) (path : String) :
    oneLess (oneMore counts path) path = counts := by
  funext file
  by_cases h : file = path
  · simp [oneLess, oneMore, h]
  · simp [oneLess, oneMore, h]

/-- Steps leave as many references as there were before, but for one to each file that was not
mapped before and whose factory has run; and at no moment there are fewer, or none to a file whose
factory has run. -/
structure KeepsReferences (counts : String → Nat) (steps : List LoadStep)
    (after : String → Nat) : Prop where
  recount_eq : steps.foldl LoadStep.recount counts = after
  after_eq : ∀ file,
    after file = counts file + if counts file = 0 ∧ ranFactory steps file then 1 else 0
  never_below : ∀ done later, steps = done ++ later → ∀ file,
    counts file ≤ done.foldl LoadStep.recount counts file
  held_of_ran : ∀ done later, steps = done ++ later → ∀ file, ranFactory done file = true →
    0 < done.foldl LoadStep.recount counts file

theorem KeepsReferences.nil (counts : String → Nat) : KeepsReferences counts [] counts where
  recount_eq := rfl
  after_eq file := by simp [ranFactory]
  never_below done later h file := by simp [(List.append_eq_nil_iff.mp h.symm).1]
  held_of_ran done later h file hran := by
    simp [(List.append_eq_nil_iff.mp h.symm).1, ranFactory] at hran

theorem KeepsReferences.append {counts between after : String → Nat}
    {steps more : List LoadStep} (h : KeepsReferences counts steps between)
    (hmore : KeepsReferences between more after) :
    KeepsReferences counts (steps ++ more) after := by
  have hle : ∀ file, counts file ≤ between file := by
    intro file
    rw [h.after_eq file]
    exact Nat.le_add_right _ _
  have hmoment : ∀ done later, steps ++ more = done ++ later →
      (∃ rest, steps = done ++ rest) ∨
        ∃ rest, done = steps ++ rest ∧ more = rest ++ later ∧
          done.foldl LoadStep.recount counts = rest.foldl LoadStep.recount between := by
    intro done later hsplit
    rcases List.append_eq_append_iff.mp hsplit with ⟨rest, rfl, hrest⟩ | ⟨rest, hrest, _⟩
    · exact .inr ⟨rest, rfl, hrest, by rw [List.foldl_append, h.recount_eq]⟩
    · exact .inl ⟨rest, hrest⟩
  constructor
  case recount_eq => rw [List.foldl_append, h.recount_eq, hmore.recount_eq]
  case after_eq =>
    intro file
    have hfirst := h.after_eq file
    rw [hmore.after_eq file, ranFactory_append]
    cases hran : ranFactory steps file with
    | false =>
        simp only [hran, Bool.false_eq_true, and_false, if_false, Nat.add_zero] at hfirst
        simp only [hfirst, Bool.false_or]
    | true =>
        by_cases hzero : counts file = 0
        · simp [hran, hzero] at hfirst
          simp [hzero, hfirst]
        · simp [hran, hzero] at hfirst
          simp [hzero, hfirst]
  case never_below =>
    intro done later hsplit file
    rcases hmoment done later hsplit with ⟨rest, hrest⟩ | ⟨rest, _, hrest, hcount⟩
    · exact h.never_below done rest hrest file
    · rw [hcount]
      exact Nat.le_trans (hle file) (hmore.never_below rest later hrest file)
  case held_of_ran =>
    intro done later hsplit file hran
    rcases hmoment done later hsplit with ⟨rest, hrest⟩ | ⟨rest, rfl, hrest, hcount⟩
    · exact h.held_of_ran done rest hrest file hran
    · rw [hcount]
      rw [ranFactory_append, Bool.or_eq_true] at hran
      rcases hran with hran | hran
      · -- the factory has run before, so the file is held in between
        have hheld := h.held_of_ran steps [] (List.append_nil steps).symm file hran
        rw [h.recount_eq] at hheld
        exact Nat.lt_of_lt_of_le hheld (hmore.never_below rest later hrest file)
      · exact hmore.held_of_ran rest later hrest file hran

theorem keepsReferences_of_isIdle {steps : List LoadStep}
    (h : ∀ step ∈ steps, step.isIdle = true) (counts : String → Nat) :
    KeepsReferences counts steps counts := by
  have hdone : ∀ done later, steps = done ++ later → ∀ step ∈ done, step.isIdle = true := by
    rintro done later rfl step hs
    exact h step (List.mem_append_left later hs)
  constructor
  case recount_eq => exact recount_of_isIdle h counts
  case after_eq =>
    intro file
    simp [ranFactory_of_isIdle h]
  case never_below =>
    intro done later hsplit file
    exact Nat.le_of_eq (by rw [recount_of_isIdle (hdone done later hsplit)])
  case held_of_ran =>
    intro done later hsplit file hran
    rw [ranFactory_of_isIdle (hdone done later hsplit)] at hran
    cases hran

theorem split_three {α : Type} {a b c : α} {done later : List α}
    (h : [a, b, c] = done ++ later) :
    done = [] ∨ done = [a] ∨ done = [a, b] ∨ done = [a, b, c] := by
  rcases done with _ | ⟨x, _ | ⟨y, _ | ⟨z, rest⟩⟩⟩
  · exact .inl rfl
  · simp_all
  · simp_all
  · simp_all

/-- While the factory is looked up the reference is held, so it matters only what the last step
leaves. -/
theorem keepsReferences_of_use {path : String} {taking giving : LoadStep} {ran : Bool}
    {counts after : String → Nat} (ht : taking.acquires? = some path)
    (hg : giving.disposes? = some path)
    (hafter : giving.recount (oneMore counts path) = after)
    (hcount : ∀ file,
      after file = counts file + if counts file = 0 ∧ (ran && path == file) then 1 else 0) :
    KeepsReferences counts [taking, .instantiated path ran, giving] after := by
  have hheld : ∀ file, counts file ≤ oneMore counts path file := by
    intro file
    unfold oneMore
    split <;> omega
  have hle : ∀ file, counts file ≤ after file := by
    intro file
    rw [hcount file]
    exact Nat.le_add_right _ _
  have htaken : [taking].foldl LoadStep.recount counts = oneMore counts path :=
    recount_of_acquires ht counts
  have hlooked : [taking, .instantiated path ran].foldl LoadStep.recount counts =
      oneMore counts path := recount_of_acquires ht counts
  have hdone : [taking, .instantiated path ran, giving].foldl LoadStep.recount counts = after := by
    rw [← hafter, ← hlooked]
    rfl
  have hruns : ∀ file,
      ranFactory [taking, .instantiated path ran] file = (ran && path == file) := by
    intro file
    have htaking := ranFactory_of_acquires ht file
    simp_all [ranFactory]
  have hrunsDone : ∀ file,
      ranFactory [taking, .instantiated path ran, giving] file = (ran && path == file) := by
    intro file
    have hsplit := ranFactory_append [taking, .instantiated path ran] [giving] file
    rw [ranFactory_of_disposes hg, hruns, Bool.or_false] at hsplit
    exact hsplit
  constructor
  case recount_eq => exact hdone
  case after_eq =>
    intro file
    rw [hrunsDone]
    exact hcount file
  case never_below =>
    intro done later hsplit file
    rcases split_three hsplit with rfl | rfl | rfl | rfl
    · exact Nat.le_refl _
    · rw [htaken]
      exact hheld file
    · rw [hlooked]
      exact hheld file
    · rw [hdone]
      exact hle file
  case held_of_ran =>
    intro done later hsplit file hran
    rcases split_three hsplit with rfl | rfl | rfl | rfl
    · cases hran
    · rw [ranFactory_of_acquires ht] at hran
      cases hran
    · rw [hruns, Bool.and_eq_true, beq_iff_eq] at hran
      rw [hlooked, oneMore, if_pos hran.2.symm]
      exact Nat.succ_pos _
    · rw [hrunsDone] at hran
      rw [hdone, hcount file]
      by_cases hzero : counts file = 0
      · simp [hzero, hran]
      · omega

theorem ReferenceUse.keepsReferences {path : String} {resident : Bool} {steps : List LoadStep}
    (h : ReferenceUse path resident steps) {counts : String → Nat}
    (hresident : resident = true ↔ 0 < counts path) :
    ∃ after, KeepsReferences counts steps after := by
  cases h with
  | none h => exact ⟨counts, keepsReferences_of_isIdle h counts⟩
  | @once before taking ran hb ht =>
      have hbefore := keepsReferences_of_isIdle hb counts
      by_cases hkept : (ran && !resident) = true
      · -- the library was not mapped, and its factory has run
        rw [if_pos hkept]
        obtain ⟨rfl, hfresh⟩ : ran = true ∧ resident = false := by simpa using hkept
        refine ⟨oneMore counts path, hbefore.append (keepsReferences_of_use ht rfl rfl ?_)⟩
        have hzero : counts path = 0 := by simpa [hfresh] using hresident
        intro file
        by_cases hf : file = path
        · simp [oneMore, hf, hzero]
        · simp [oneMore, hf, Ne.symm hf]
      · rw [if_neg hkept]
        refine ⟨counts, hbefore.append
          (keepsReferences_of_use ht rfl (oneLess_oneMore counts path) ?_)⟩
        intro file
        have hno : ¬ (counts file = 0 ∧ (ran && path == file) = true) := by
          rintro ⟨hzero, hran⟩
          rw [Bool.and_eq_true, beq_iff_eq] at hran
          obtain ⟨rfl, rfl⟩ := hran
          have hpos : 0 < counts path := hresident.mp (by simpa using hkept)
          omega
        rw [if_neg hno, Nat.add_zero]

/-! ## Loads on a machine that counts -/

variable {σ : Type}

/-- What one load of a sequence leaves. -/
structure BalancedLoad (count : σ → String → Nat) (state : σ) (report : LoadReport σ) :
    Prop where
  disposedOnce : DisposedOnce report.steps
  keepsReferences : KeepsReferences (count state) report.steps (count report.state)
  resident_eq : ∀ file, 0 < count state file → count report.state file = count state file

theorem LoadRequest.perform_balanced {backend : FileSystem → Backend σ}
    {count : σ → String → Nat} (r : LoadRequest σ) (hcounts : (backend r.files).Counts count)
    (hrules : r.options.rules.Leaves count) (state : σ) :
    BalancedLoad count state (r.perform backend state) := by
  have hrule := r.perform_rule backend state
  have huse := hrule.referenceUse
  obtain ⟨after, hkeeps⟩ := huse.keepsReferences (hcounts.probe_iff r.path state)
  have hafter : count (r.perform backend state).state = after := by
    rw [hrule.recount hcounts hrules, hkeeps.recount_eq]
  rw [← hafter] at hkeeps
  constructor
  case disposedOnce => exact huse.disposedOnce
  case keepsReferences => exact hkeeps
  case resident_eq =>
    intro file hpos
    rw [hkeeps.after_eq file, if_neg (by omega), Nat.add_zero]

theorem keepsReferences_journal {backend : FileSystem → Backend σ} {count : σ → String → Nat}
    (hcounts : ∀ fs, (backend fs).Counts count) {loads : List (LoadRequest σ)}
    (hrules : ∀ r ∈ loads, r.options.rules.Leaves count) (state : σ) :
    KeepsReferences (count state) (journal backend state loads)
      (count (stateAfter backend state loads)) := by
  induction loads generalizing state with
  | nil => exact .nil (count state)
  | cons r rest ih =>
      have hload := r.perform_balanced (hcounts r.files) (hrules r (by simp)) state
      exact hload.keepsReferences.append (ih (fun q hq => hrules q (by simp [hq])) _)

/-- After any sequence of loads there are as many references to each file as before it, and one
more if there was none and the file's factory has run. Every load disposes of the reference that it
takes exactly once, and the references to a file that was mapped before it, or whose factory has
run, never come to an end. A caller's own check of files is not to map or unmap libraries itself. -/
theorem loads_keep_references {backend : FileSystem → Backend σ} {count : σ → String → Nat}
    (hcounts : ∀ fs, (backend fs).Counts count) {loads : List (LoadRequest σ)}
    (hrules : ∀ r ∈ loads, r.options.rules.Leaves count) (initial : σ) :
    KeepsReferences (count initial) (journal backend initial loads)
        (count (stateAfter backend initial loads)) ∧
      ∀ earlier r later, loads = earlier ++ r :: later →
        BalancedLoad count (stateAfter backend initial earlier)
          (r.perform backend (stateAfter backend initial earlier)) := by
  refine ⟨keepsReferences_journal hcounts hrules initial, ?_⟩
  rintro earlier r later rfl
  exact r.perform_balanced (hcounts r.files) (hrules r (by simp)) _

theorem counted_loads_keep_references :
    let files : FileSystem :=
      .holding [(["vpn.so"], .plainFile ByteArray.empty)] ⟨1000, 1000, []⟩
    let refuse : FilePolicy (String → Nat) := fun _ _ counts => (.error "no", counts)
    let load (name : String) (checked : Bool) (policy : Option (FilePolicy (String → Nat))) :
        LoadRequest (String → Nat) := ⟨files, "/", name, ⟨checked, none, ⟨some 1000, policy⟩⟩⟩
    let backend := fun _ : FileSystem => Backend.counting fun path =>
      if path = "/vpn.so" then some (.error none) else none
    let loads := [load "vpn.so" true (some refuse), load "vpn.so" true none,
      load "/vpn.so" false none, load "/held.so" true none, load "gone.so" false none]
    let initial : String → Nat := fun path => if path = "/held.so" then 2 else 0
    (∀ fs, (backend fs).Counts id) ∧ (∀ r ∈ loads, r.options.rules.Leaves id) ∧
      KeepsReferences initial (journal backend initial loads)
        (stateAfter backend initial loads) ∧
      ∀ earlier r later, loads = earlier ++ r :: later →
        BalancedLoad id (stateAfter backend initial earlier)
          (r.perform backend (stateAfter backend initial earlier)) := by
  intro files refuse load backend loads initial
  have hcounts : ∀ fs, (backend fs).Counts id := fun _ => counting_counts _
  have hrules : ∀ r ∈ loads, r.options.rules.Leaves id := by
    simp [loads, load, refuse, VettingRules.Leaves]
  exact ⟨hcounts, hrules, loads_keep_references hcounts hrules initial⟩

end PluginHost
