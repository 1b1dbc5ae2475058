import PluginHost.Proofs.Loader.Steps

/-! # The stages of a load

A load is told something at each of its stages, and each stage can fail in its own way. The stages
have an order, so among those that fail there is a first one. -/

namespace PluginHost

variable {σ : Type}

def LoadStep.path : LoadStep → String
  | .probed path _ => path
  | .vetted path _ _ => path
  | .mapped path _ => path
  | .instantiated path _ => path
  | .released path => path
  | .kept path => path

/-! ## What a load finds -/

/-- What a load is told at each stage, if it gets that far, and the states of the machine between
the stages. -/
structure Course (σ : Type) where
  resident : Bool
  /-- What vetting says of the file. -/
  verdict : Except HostError Unit
  /-- Whether the file can be mapped. -/
  mapping : Except String Unit
  /-- Whether there is a factory, and what it gives. -/
  factory : Except String FactoryOutcome
  probed : σ
  cleared : σ
  reached : σ
  ran : σ

def LoadRequest.course (r : LoadRequest σ) (backend : Backend σ) (state : σ) : Course σ :=
  let (resident, probed) := backend.probe r.path state
  let (verdict, vetted) := vet r.files r.options.rules r.path probed
  let cleared := if resident || !r.options.checked then probed else vetted
  let (mapping, mapped) := backend.map r.path cleared
  let reached := if resident then cleared else mapped
  let (factory, ran) := backend.instantiate r.path reached
  { resident, verdict, mapping, factory, probed, cleared, reached, ran }

section

variable (r : LoadRequest σ) (backend : Backend σ) (state : σ)

theorem LoadRequest.course_mapping : (r.course backend state).mapping =
    (backend.map r.path (r.course backend state).cleared).1 := by
  simp only [LoadRequest.course]

theorem LoadRequest.course_reached : (r.course backend state).reached =
    if (r.course backend state).resident then (r.course backend state).cleared
    else (backend.map r.path (r.course backend state).cleared).2 := by
  simp only [LoadRequest.course]
  rfl

theorem LoadRequest.course_factory : (r.course backend state).factory =
    (backend.instantiate r.path (r.course backend state).reached).1 := by
  simp only [LoadRequest.course]

theorem LoadRequest.course_ran : (r.course backend state).ran =
    (backend.instantiate r.path (r.course backend state).reached).2 := by
  simp only [LoadRequest.course]

end

def Course.residency (c : Course σ) : Residency :=
  if c.resident then .released else .keptResident

/-! ## Stages -/

inductive Stage where
  | name
  | probe
  | vetting
  | mapping
  /-- The factory is looked up and run, and the load is done with its reference. -/
  | symbol
  | outcome
  | identity
  | service
  deriving DecidableEq

namespace Stage

def all : List Stage :=
  [.name, .probe, .vetting, .mapping, .symbol, .outcome, .identity, .service]

def before (stage : Stage) : List Stage :=
  all.takeWhile (· ≠ stage)

/-- A stage fails with an error. -/
inductive Fails (r : LoadRequest σ) (c : Course σ) : Stage → HostError → Prop where
  | name (h : r.name = "") : Fails r c .name (.loadError "" "empty plugin name")
  | vetting {e} (hr : c.resident = false) (hc : r.options.checked = true)
      (hv : c.verdict = .error e) : Fails r c .vetting e
  | mapping {reason} (hr : c.resident = false) (hm : c.mapping = .error reason) :
      Fails r c .mapping (.loadError r.name reason)
  | symbol {reason} (hf : c.factory = .error reason) :
      Fails r c .symbol
        (.loadError r.name ("failed to resolve the plugin factory: " ++ reason))
  | reason {reason} (hf : c.factory = .ok (.error (some reason))) :
      Fails r c .outcome (.factoryFailed r.name reason)
  | noReason (hf : c.factory = .ok (.error none)) :
      Fails r c .outcome (.unknownInitError r.name)
  | identity {plugin} (hf : c.factory = .ok (.ok plugin)) (hn : plugin.name = "") :
      Fails r c .identity (.missingName r.name)
  | service {plugin expected} (hf : c.factory = .ok (.ok plugin))
      (hs : r.options.service = some expected) (hne : plugin.service ≠ expected) :
      Fails r c .service (.serviceMismatch r.name expected plugin.service)

/-- None of the stages before a stage fails. -/
def Entered (r : LoadRequest σ) (c : Course σ) (stage : Stage) : Prop :=
  ∀ earlier ∈ stage.before, ∀ e, ¬ earlier.Fails r c e

/-- The first stage that fails does so with an error. -/
structure FailsFirst (r : LoadRequest σ) (c : Course σ) (stage : Stage) (e : HostError) :
    Prop where
  entered : stage.Entered r c
  fails : stage.Fails r c e

def steps (r : LoadRequest σ) (c : Course σ) : Stage → List LoadStep
  | .probe => [.probed r.path c.resident]
  | .vetting =>
    if c.resident || !r.options.checked then []
    else [.vetted r.path r.options.rules.owner c.verdict]
  | .mapping => if c.resident then [] else [.mapped r.path c.mapping]
  | .symbol =>
    match c.factory with
    | .ok _ => [.instantiated r.path true, disposal r.path c.residency]
    | .error _ => [.instantiated r.path false, .released r.path]
  | _ => []

/-- The state of the machine after a stage. -/
def state (backend : Backend σ) (r : LoadRequest σ) (initial : σ) (c : Course σ) : Stage → σ
  | .name => initial
  | .probe => c.probed
  | .vetting => c.cleared
  | .mapping => c.reached
  | _ =>
    match c.factory with
    | .ok _ => backend.dispose r.path c.ran c.residency
    | .error _ => backend.release r.path c.ran

end Stage

/-! ## Success -/

/-- A load comes by a reference to its library: the library is mapped already, or its file is
accepted, where it has to be, and can be mapped. -/
def Opens (r : LoadRequest σ) (c : Course σ) : Prop :=
  c.resident = true ∨ (r.options.checked = false ∨ c.verdict = .ok ()) ∧ c.mapping = .ok ()

/-- A load is to succeed with a plugin. -/
structure Admits (r : LoadRequest σ) (c : Course σ) (plugin : Plugin) : Prop where
  named : r.name ≠ ""
  opened : Opens r c
  made : c.factory = .ok (.ok plugin)
  plugin_named : plugin.name ≠ ""
  serves : ∀ expected, r.options.service = some expected → plugin.service = expected

/-! ## Stages in order -/

section

variable {r : LoadRequest σ} {c : Course σ} {stage : Stage} {e : HostError}

theorem Stage.before_or (a b : Stage) : a = b ∨ a ∈ b.before ∨ b ∈ a.before := by
  cases a <;> cases b <;> decide

theorem Stage.Fails.unique {e' : HostError} (h : stage.Fails r c e) (h' : stage.Fails r c e') :
    e = e' := by
  cases h with
  | name => cases h'; rfl
  | vetting _ _ hv =>
      cases h' with
      | vetting _ _ hv' => cases hv.symm.trans hv'; rfl
  | mapping _ hm =>
      cases h' with
      | mapping _ hm' => cases hm.symm.trans hm'; rfl
  | symbol hf =>
      cases h' with
      | symbol hf' => cases hf.symm.trans hf'; rfl
  | reason hf =>
      cases h' with
      | reason hf' => cases hf.symm.trans hf'; rfl
      | noReason hf' => cases hf.symm.trans hf'
  | noReason hf =>
      cases h' with
      | reason hf' => cases hf.symm.trans hf'
      | noReason => rfl
  | identity => cases h'; rfl
  | service hf hs =>
      cases h' with
      | service hf' hs' => cases hf.symm.trans hf'; cases hs.symm.trans hs'; rfl

theorem Stage.FailsFirst.unique {stage' : Stage} {e' : HostError}
    (h : Stage.FailsFirst r c stage e) (h' : Stage.FailsFirst r c stage' e') :
    stage = stage' ∧ e = e' := by
  rcases Stage.before_or stage stage' with rfl | hbefore | hafter
  · exact ⟨rfl, h.fails.unique h'.fails⟩
  · exact absurd h.fails (h'.entered stage hbefore e)
  · exact absurd h'.fails (h.entered stage' hafter e')

theorem Admits.unique {plugin plugin' : Plugin} (h : Admits r c plugin)
    (h' : Admits r c plugin') : plugin = plugin' := by
  cases h.made.symm.trans h'.made
  rfl

theorem entered_next {next : Stage} (h : stage.Entered r c) (hpass : ∀ e, ¬ stage.Fails r c e)
    (hnext : next.before = stage.before ++ [stage]) : next.Entered r c := by
  intro earlier hmem
  rw [hnext, List.mem_append, List.mem_singleton] at hmem
  rcases hmem with hmem | rfl
  · exact h earlier hmem
  · exact hpass

theorem entered_name : Stage.name.Entered r c := by
  intro earlier hmem
  cases hmem

theorem entered_vetting (hn : r.name ≠ "") : Stage.vetting.Entered r c := by
  have hprobe : Stage.probe.Entered r c := by
    refine entered_next entered_name (fun e hfails => ?_) rfl
    cases hfails with
    | name h => exact hn h
  exact entered_next hprobe (fun e hfails => nomatch hfails) rfl

theorem entered_mapping (hn : r.name ≠ "")
    (hcleared : c.resident = true ∨ r.options.checked = false ∨ c.verdict = .ok ()) :
    Stage.mapping.Entered r c := by
  refine entered_next (entered_vetting hn) (fun e hfails => ?_) rfl
  cases hfails with
  | vetting hr hc hv => simp [hr, hc, hv] at hcleared

/-- Where the name is given and the file is opened, the stages up to there are passed. -/
theorem entered_symbol (hn : r.name ≠ "") (hopened : Opens r c) : Stage.symbol.Entered r c := by
  refine entered_next (entered_mapping hn (Or.imp_right And.left hopened)) (fun e hfails => ?_) rfl
  cases hfails with
  | mapping hr hm => simp [Opens, hr, hm] at hopened

/-- Where there is a factory, too, only its outcome is left. -/
theorem entered_outcome {outcome : FactoryOutcome} (hn : r.name ≠ "") (hopened : Opens r c)
    (hf : c.factory = .ok outcome) : Stage.outcome.Entered r c := by
  refine entered_next (entered_symbol hn hopened) (fun e hfails => ?_) rfl
  cases hfails with
  | symbol hf' => cases hf.symm.trans hf'

theorem Admits.not_fails {plugin : Plugin} (h : Admits r c plugin) : ¬ stage.Fails r c e := by
  have hsymbol := entered_symbol h.named h.opened
  intro hfails
  cases hfails with
  | name hn => exact h.named hn
  | vetting hr hc hv => exact hsymbol .vetting (by decide) _ (.vetting hr hc hv)
  | mapping hr hm => exact hsymbol .mapping (by decide) _ (.mapping hr hm)
  | symbol hf | reason hf | noReason hf => cases h.made.symm.trans hf
  | identity hf hn =>
      cases h.made.symm.trans hf
      exact h.plugin_named hn
  | service hf hs hne =>
      cases h.made.symm.trans hf
      exact hne (h.serves _ hs)

end

end PluginHost
