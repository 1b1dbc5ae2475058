import PluginHost.Proofs.Loader.Stages

/-! # How a load settles

A load ends at the first stage that fails or passes all stages. Its result, its steps and the state
it leaves follow from that alone. -/

namespace PluginHost

variable {σ : Type}

/-- What a load gives and does. -/
structure Staged (backend : Backend σ) (r : LoadRequest σ) (initial : σ) (c : Course σ)
    (report : LoadReport σ) : Prop where
  ok_iff : ∀ p, report.result = .ok p ↔
    ∃ plugin, Admits r c plugin ∧ p = ⟨plugin, some r.path, c.residency, WeakLink.empty, []⟩
  error_iff : ∀ e, report.result = .error e ↔ ∃ stage, Stage.FailsFirst r c stage e
  /-- Nothing is done in the stages after the one that fails. -/
  failed : ∀ stage e, Stage.FailsFirst r c stage e →
    report.steps = (stage.before ++ [stage]).flatMap (Stage.steps r c) ∧
      report.state = stage.state backend r initial c
  passed : ∀ p, report.result = .ok p →
    report.steps = Stage.all.flatMap (Stage.steps r c) ∧
      report.state = Stage.state backend r initial c .service
  nameless : r.name = "" → report = ⟨[], .error (.loadError "" "empty plugin name"), initial⟩
  same_file : ∀ step ∈ report.steps, step.path = r.path

/-! ## Every load ends at a stage or passes them all -/

/-- A load ended at the stage that fails first, or passed all stages. -/
inductive Ends (backend : Backend σ) (r : LoadRequest σ) (initial : σ) (c : Course σ) :
    LoadReport σ → Prop where
  | passed {plugin} (h : Admits r c plugin) :
      Ends backend r initial c
        ⟨Stage.all.flatMap (Stage.steps r c), .ok (.ofLibrary plugin r.path c.residency),
          Stage.state backend r initial c .service⟩
  | failed {stage e} (h : Stage.FailsFirst r c stage e) :
      Ends backend r initial c
        ⟨(stage.before ++ [stage]).flatMap (Stage.steps r c), .error e,
          stage.state backend r initial c⟩

section

variable {backend : Backend σ} {r : LoadRequest σ} {initial : σ}

theorem Ends.of_failed {c : Course σ} {stage : Stage} {e : HostError} {steps : List LoadStep}
    {state : σ} (h : Stage.FailsFirst r c stage e)
    (hsteps : (stage.before ++ [stage]).flatMap (Stage.steps r c) = steps)
    (hstate : stage.state backend r initial c = state) :
    Ends backend r initial c ⟨steps, .error e, state⟩ := by
  subst hsteps hstate
  exact .failed h

theorem ends_of_nameless (hn : r.name = "") (c : Course σ) :
    Ends backend r initial c ⟨[], .error (.loadError "" "empty plugin name"), initial⟩ :=
  .of_failed ⟨entered_name, .name hn⟩ rfl rfl

theorem ends_of_refused {probed after : σ} {e : HostError} (hn : r.name ≠ "")
    (hp : backend.probe r.path initial = (false, probed)) (hc : r.options.checked = true)
    (hv : vet r.files r.options.rules r.path probed = (.error e, after)) :
    Ends backend r initial (r.course backend initial)
      ⟨[.probed r.path false, .vetted r.path r.options.rules.owner (.error e)], .error e,
        after⟩ := by
  have hbefore : Stage.vetting.before = [.name, .probe] := rfl
  have hfails : Stage.vetting.Fails r (r.course backend initial) e := by
    refine .vetting ?_ hc ?_
    · simp [LoadRequest.course, hp]
    · simp [LoadRequest.course, hp, hv]
  refine .of_failed ⟨entered_vetting hn, hfails⟩ ?_ ?_
  · simp [LoadRequest.course, hbefore, Stage.steps, hp, hc, hv]
  · simp [LoadRequest.course, Stage.state, hp, hc, hv]

/-- What a load finds of a file that is not mapped yet and has been cleared. -/
structure FindsCleared (r : LoadRequest σ) (c : Course σ) (clearance : List LoadStep)
    (cleared : σ) : Prop where
  resident_eq : c.resident = false
  cleared_eq : c.cleared = cleared
  steps_eq : Stage.mapping.before.flatMap (Stage.steps r c) = .probed r.path false :: clearance
  accepted : r.options.checked = false ∨ c.verdict = .ok ()

theorem Clears.finds {probed cleared : σ} {clearance : List LoadStep}
    (h : Clears r.files r.options r.path probed clearance cleared)
    (hp : backend.probe r.path initial = (false, probed)) :
    FindsCleared r (r.course backend initial) clearance cleared := by
  have hbefore : Stage.mapping.before = [.name, .probe, .vetting] := rfl
  cases h with
  | vetted cleared hc hv =>
      constructor <;> simp [LoadRequest.course, hbefore, Stage.steps, hp, hc, hv]
  | waived hc =>
      constructor <;> simp [LoadRequest.course, hbefore, Stage.steps, hp, hc]

theorem ends_of_unmapped {probed cleared after : σ} {clearance : List LoadStep} {reason : String}
    (hn : r.name ≠ "") (hp : backend.probe r.path initial = (false, probed))
    (hc : Clears r.files r.options r.path probed clearance cleared)
    (hm : backend.map r.path cleared = (.error reason, after)) :
    Ends backend r initial (r.course backend initial)
      ⟨.probed r.path false :: clearance ++ [.mapped r.path (.error reason)],
        .error (.loadError r.name reason), after⟩ := by
  have hfinds := hc.finds hp
  have hmapping : (r.course backend initial).mapping = .error reason := by
    rw [r.course_mapping, hfinds.cleared_eq, hm]
  have hreached : (r.course backend initial).reached = after := by
    rw [r.course_reached, hfinds.resident_eq, hfinds.cleared_eq, hm]
    rfl
  have hentered := entered_mapping hn (.inr hfinds.accepted)
  refine .of_failed ⟨hentered, .mapping hfinds.resident_eq hmapping⟩ ?_ hreached
  rw [List.flatMap_append, hfinds.steps_eq]
  simp [Stage.steps, hfinds.resident_eq, hmapping]

/-- What a load finds that comes by its reference. -/
structure FindsLibrary (r : LoadRequest σ) (c : Course σ) (residency : Residency)
    (steps : List LoadStep) (reached : σ) : Prop where
  residency_eq : c.residency = residency
  reached_eq : c.reached = reached
  steps_eq : Stage.symbol.before.flatMap (Stage.steps r c) = steps
  opened : Opens r c

theorem Reaches.finds {residency : Residency} {steps : List LoadStep} {reached : σ}
    (h : Reaches backend r.files r.options r.path initial residency steps reached) :
    FindsLibrary r (r.course backend initial) residency steps reached := by
  have hbefore : Stage.symbol.before = Stage.mapping.before ++ [.mapping] := rfl
  cases h with
  | resident probed hp =>
      have hresident : (r.course backend initial).resident = true := by
        simp [LoadRequest.course, hp]
      constructor
      case residency_eq => simp [Course.residency, hresident]
      case reached_eq => simp [LoadRequest.course, hp]
      case steps_eq =>
        have hall : Stage.symbol.before = [.name, .probe, .vetting, .mapping] := rfl
        simp [hall, Stage.steps, hresident]
      case opened => exact .inl hresident
  | mapped probed clearance cleared reached hp hc hm =>
      have hfinds := hc.finds hp
      have hmapping : (r.course backend initial).mapping = .ok () := by
        rw [r.course_mapping, hfinds.cleared_eq, hm]
      constructor
      case residency_eq => simp [Course.residency, hfinds.resident_eq]
      case reached_eq =>
        rw [r.course_reached, hfinds.resident_eq, hfinds.cleared_eq, hm]
        rfl
      case steps_eq =>
        rw [hbefore, List.flatMap_append, hfinds.steps_eq]
        simp [Stage.steps, hfinds.resident_eq, hmapping]
      case opened => exact .inr ⟨hfinds.accepted, hmapping⟩

theorem Reaches.answered {residency : Residency} {steps : List LoadStep} {reached after : σ}
    {answer : Except String FactoryOutcome}
    (h : Reaches backend r.files r.options r.path initial residency steps reached)
    (hi : backend.instantiate r.path reached = (answer, after)) :
    (r.course backend initial).factory = answer ∧ (r.course backend initial).ran = after := by
  rw [r.course_factory, r.course_ran, h.finds.reached_eq, hi]
  exact ⟨rfl, rfl⟩

theorem ends_of_withoutFactory {residency : Residency} {steps : List LoadStep} {reached after : σ}
    {reason : String} (hn : r.name ≠ "")
    (hr : Reaches backend r.files r.options r.path initial residency steps reached)
    (hi : backend.instantiate r.path reached = (.error reason, after)) :
    Ends backend r initial (r.course backend initial)
      ⟨steps ++ [.instantiated r.path false, .released r.path],
        .error (.loadError r.name ("failed to resolve the plugin factory: " ++ reason)),
        backend.release r.path after⟩ := by
  have hfinds := hr.finds
  obtain ⟨hfactory, hran⟩ := hr.answered hi
  refine .of_failed ⟨entered_symbol hn hfinds.opened, .symbol hfactory⟩ ?_ ?_
  · rw [List.flatMap_append, hfinds.steps_eq]
    simp [Stage.steps, hfactory]
  · simp [Stage.state, hfactory, hran]

/-- What becomes of an outcome is settled in the last three stages. -/
theorem welcome_settled {c : Course σ} {outcome : FactoryOutcome} (hn : r.name ≠ "")
    (hopened : Opens r c) (hf : c.factory = .ok outcome) (path : String) (residency : Residency) :
    (∃ plugin, Admits r c plugin ∧ welcome r.name path r.options.service residency outcome =
      .ok (.ofLibrary plugin path residency)) ∨
    ∃ stage ∈ [Stage.outcome, .identity, .service], ∃ e, Stage.FailsFirst r c stage e ∧
      welcome r.name path r.options.service residency outcome = .error e := by
  have houtcome := entered_outcome hn hopened hf
  -- the stages judge an outcome in the order in which the load does
  cases outcome with
  | error reason =>
      refine .inr ⟨.outcome, by simp, ?_⟩
      cases reason with
      | some reason => exact ⟨_, ⟨houtcome, .reason hf⟩, rfl⟩
      | none => exact ⟨_, ⟨houtcome, .noReason hf⟩, rfl⟩
  | ok plugin =>
      have hidentity : Stage.identity.Entered r c := by
        refine entered_next houtcome (fun e hfails => ?_) rfl
        cases hfails with
        | reason hf' | noReason hf' => cases hf.symm.trans hf'
      by_cases hname : plugin.name = ""
      · exact .inr ⟨.identity, by simp, _, ⟨hidentity, .identity hf hname⟩,
          by simp [welcome, checkIdentity, hname]⟩
      · have hservice : Stage.service.Entered r c := by
          refine entered_next hidentity (fun e hfails => ?_) rfl
          cases hfails with
          | identity hf' hname' =>
              cases hf.symm.trans hf'
              exact hname hname'
        by_cases hserves : ∀ expected, r.options.service = some expected →
            plugin.service = expected
        · refine .inl ⟨plugin, ⟨hn, hopened, hf, hname, hserves⟩, ?_⟩
          cases hs : r.options.service with
          | none => simp [welcome, checkIdentity, hname]
          | some expected => simp [welcome, checkIdentity, hname, hserves expected hs]
        · simp only [not_forall, exists_prop] at hserves
          obtain ⟨expected, hs, hother⟩ := hserves
          exact .inr ⟨.service, by simp, _, ⟨hservice, .service hf hs hother⟩,
            by simp [welcome, checkIdentity, hname, hs, hother]⟩

/-- Nothing is done any more once the load is done with its reference. -/
theorem steps_through_late {stage : Stage} (h : stage ∈ [Stage.outcome, .identity, .service])
    (c : Course σ) :
    (stage.before ++ [stage]).flatMap (Stage.steps r c) =
      (Stage.symbol.before ++ [Stage.symbol]).flatMap (Stage.steps r c) := by
  simp only [List.mem_cons, List.not_mem_nil, or_false] at h
  rcases h with rfl | rfl | rfl <;> rfl

theorem state_late {stage : Stage} (h : stage ∈ [Stage.outcome, .identity, .service])
    (c : Course σ) :
    stage.state backend r initial c = Stage.symbol.state backend r initial c := by
  simp only [List.mem_cons, List.not_mem_nil, or_false] at h
  rcases h with rfl | rfl | rfl <;> rfl

theorem ends_of_ran {residency : Residency} {steps : List LoadStep} {reached after : σ}
    {outcome : FactoryOutcome} (hn : r.name ≠ "")
    (hr : Reaches backend r.files r.options r.path initial residency steps reached)
    (hi : backend.instantiate r.path reached = (.ok outcome, after)) :
    Ends backend r initial (r.course backend initial)
      ⟨steps ++ [.instantiated r.path true, disposal r.path residency],
        welcome r.name r.path r.options.service residency outcome,
        backend.dispose r.path after residency⟩ := by
  have hfinds := hr.finds
  obtain ⟨hfactory, hran⟩ := hr.answered hi
  have hsteps : (Stage.symbol.before ++ [Stage.symbol]).flatMap
      (Stage.steps r (r.course backend initial)) =
        steps ++ [.instantiated r.path true, disposal r.path residency] := by
    rw [List.flatMap_append, hfinds.steps_eq]
    simp [Stage.steps, hfactory, hfinds.residency_eq]
  have hstate : Stage.symbol.state backend r initial (r.course backend initial) =
      backend.dispose r.path after residency := by
    simp [Stage.state, hfactory, hran, hfinds.residency_eq]
  rcases welcome_settled hn hfinds.opened hfactory r.path residency with
    ⟨plugin, hadmits, hwelcome⟩ | ⟨stage, hlate, e, hfirst, hwelcome⟩
  · rw [hwelcome, ← hsteps, ← hstate, ← hfinds.residency_eq]
    exact .passed hadmits
  · rw [hwelcome]
    exact .of_failed hfirst ((steps_through_late hlate _).trans hsteps)
      ((state_late hlate _).trans hstate)

theorem LoadRule.ends {report : LoadReport σ}
    (h : LoadRule backend r.files r.name r.path r.options initial report) :
    Ends backend r initial (r.course backend initial) report := by
  cases h with
  | nameless hn => exact ends_of_nameless hn _
  | refused probed e after hn hp hc hv => exact ends_of_refused hn hp hc hv
  | unmapped probed clearance cleared reason after hn hp hc hm =>
      exact ends_of_unmapped hn hp hc hm
  | withoutFactory residency steps reached reason after hn hr hi =>
      exact ends_of_withoutFactory hn hr hi
  | ran residency steps reached outcome after hn hr hi => exact ends_of_ran hn hr hi

theorem path_disposal (path : String) (residency : Residency) :
    (disposal path residency).path = path := by
  cases residency <;> rfl

theorem path_of_mem_steps {c : Course σ} {stage : Stage} {step : LoadStep}
    (h : step ∈ stage.steps r c) : step.path = r.path := by
  cases stage with
  | name | outcome | identity | service => cases h
  | probe =>
      rw [List.mem_singleton.mp h]
      rfl
  | vetting | mapping =>
      rw [Stage.steps] at h
      split at h
      · cases h
      · rw [List.mem_singleton.mp h]
        rfl
  | symbol =>
      rw [Stage.steps] at h
      cases hf : c.factory with
      | error reason =>
          simp only [hf, List.mem_cons, List.not_mem_nil, or_false] at h
          rcases h with rfl | rfl <;> rfl
      | ok outcome =>
          simp only [hf, List.mem_cons, List.not_mem_nil, or_false] at h
          rcases h with rfl | rfl
          · rfl
          · exact path_disposal r.path c.residency

theorem Ends.staged {c : Course σ} {report : LoadReport σ} (h : Ends backend r initial c report) :
    Staged backend r initial c report := by
  cases h with
  | @passed plugin hadmits =>
      have hnone : ∀ stage e, ¬ Stage.FailsFirst r c stage e := fun stage e hfirst =>
        hadmits.not_fails hfirst.fails
      constructor
      case ok_iff =>
        intro p
        constructor
        · intro hp
          cases hp
          exact ⟨plugin, hadmits, rfl⟩
        · rintro ⟨other, hother, rfl⟩
          rw [hother.unique hadmits]
          rfl
      case error_iff => exact fun e => ⟨nofun, fun ⟨stage, hfirst⟩ => (hnone stage e hfirst).elim⟩
      case failed => exact fun stage e hfirst => (hnone stage e hfirst).elim
      case passed => exact fun p _ => ⟨rfl, rfl⟩
      case nameless => exact fun hn => (hadmits.named hn).elim
      case same_file =>
        intro step hstep
        obtain ⟨stage, _, hmem⟩ := List.mem_flatMap.mp hstep
        exact path_of_mem_steps hmem
  | @failed stage e hfirst =>
      constructor
      case ok_iff =>
        refine fun p => ⟨nofun, ?_⟩
        rintro ⟨plugin, hadmits, _⟩
        exact (hadmits.not_fails hfirst.fails).elim
      case error_iff =>
        intro e'
        constructor
        · intro he
          cases he
          exact ⟨stage, hfirst⟩
        · rintro ⟨other, hother⟩
          rw [(hfirst.unique hother).2]
      case failed =>
        intro other e' hother
        obtain ⟨rfl, rfl⟩ := hfirst.unique hother
        exact ⟨rfl, rfl⟩
      case passed => exact fun p => nofun
      case nameless =>
        intro hn
        have hname : Stage.FailsFirst r c .name _ := ⟨entered_name, .name hn⟩
        obtain ⟨rfl, rfl⟩ := hfirst.unique hname
        rfl
      case same_file =>
        intro step hstep
        obtain ⟨stage, _, hmem⟩ := List.mem_flatMap.mp hstep
        exact path_of_mem_steps hmem

end

/-- A load settles by its stages: it succeeds if none of them fails, and otherwise ends at the first
that does. -/
theorem load_settles_by_stages (loader : PluginLoader σ) (fs : FileSystem) (name : String)
    (options : LoadOptions σ) (state : σ) :
    let r : LoadRequest σ := ⟨fs, loader.directory, name, options⟩
    Staged loader.backend r state (r.course loader.backend state)
      (loader.load fs name options state) :=
  (load_rule loader fs name options state).ends.staged

end PluginHost
