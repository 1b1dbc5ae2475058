import PluginHost.CommandLine.Run
import PluginHost.Proofs.Config.OwnerCheck
import PluginHost.Proofs.Host.LinkNotices
import PluginHost.Proofs.Loader.Vetted

/-! # Which libraries a command opens

Whatever a command line names, and whichever way it takes to a library, the library is vetted
before it is opened. Who has to own it is up to the configuration file alone. -/

namespace PluginHost.CommandLine

variable {s : Surroundings} {arguments : List String} {options : Options} {request : Request}
  {config : Config} {h : Host Libraries}

/-! ## The owner that is demanded -/

/-- What the configuration file that the options name says about checking owners. -/
def Options.saidOwnerCheck? (options : Options) (files : FileSystem) : Option Datum := do
  let path ← options.config
  let text ← (files.readText path).bind Except.toOption
  let document ← Toml.readDocument? text
  Config.saidOwnerCheck? document

/-- The user who has to own a library: nobody if the configuration file says so, and otherwise the
one who runs the command. -/
def demandedOwner (s : Surroundings) (options : Options) : Option Nat :=
  match options.saidOwnerCheck? s.files with
  | some (.bool false) => none
  | _ => some s.user

theorem load_checkOwner {files : FileSystem} {path : String} (hpath : options.config = some path)
    (hload : Config.load files path = some (.ok config)) :
    config.checkOwner = false ↔ options.saidOwnerCheck? files = some (.bool false) := by
  obtain ⟨text | fault, hread, hparse⟩ := Option.map_eq_some_iff.mp hload
  · cases hparse
  · obtain ⟨document, hdocument, hsaid⟩ := Config.parse_checkOwner hparse
    rw [hsaid]
    simp [Options.saidOwnerCheck?, hpath, hread, hdocument, Except.toOption]

theorem fileSettings_checkOwner {files : FileSystem}
    (hconfig : fileSettings files options = some (.ok config)) :
    config.checkOwner = false ↔ options.saidOwnerCheck? files = some (.bool false) := by
  unfold fileSettings at hconfig
  split at hconfig
  · rename_i path hpath
    obtain ⟨loaded, hload, hok⟩ := Option.map_eq_some_iff.mp hconfig
    rw [mapError_eq_ok_iff] at hok
    exact load_checkOwner hpath (hok ▸ hload)
  · rename_i hnone
    cases hconfig
    simp [Config.default, Options.saidOwnerCheck?, hnone]

/-- Neither the environment nor an option has a say in it. -/
theorem requiredOwner_settings (hconfig : settings s options = some (.ok config)) :
    config.requiredOwner s.user = demandedOwner s options := by
  obtain ⟨loaded, hfile, hok⟩ := Option.map_eq_some_iff.mp hconfig
  obtain ⟨base, rfl, rfl⟩ := map_eq_ok.mp hok
  have hsaid := fileSettings_checkOwner hfile
  have hkept : (options.apply (base.withEnvironment s.environment)).checkOwner =
      base.checkOwner := rfl
  rw [Config.requiredOwner, hkept, demandedOwner]
  cases hcheck : base.checkOwner with
  | false => rw [hsaid.mp hcheck, if_neg Bool.false_ne_true]
  | true =>
      rw [if_pos rfl]
      split
      · rename_i hfalse
        rw [hsaid.mpr hfalse] at hcheck
        cases hcheck
      · rfl

/-! ## The only load of a command -/

/-- The steps of a command are those of one load, if there are any, and it is a load of a vetted
file. -/
theorem openPlugin_steps (s : Surroundings) (config : Config) (h : Host Libraries)
    (argument : String) :
    (openPlugin s config h argument).steps = [] ∨ ∃ name service,
      (openPlugin s config h argument).steps =
        ((Libraries.loader config.pluginDirectory s.files).loadFile s.files name service
          ⟨config.requiredOwner s.user, none⟩ h).steps := by
  unfold openPlugin
  split
  · rename_i record _
    simp only
    unfold Host.loadRecord
    split
    · exact .inl rfl
    · split
      · exact .inl rfl
      · rename_i library _
        refine .inr ⟨library, some record.info.service, ?_⟩
        simp only
        split <;> rfl
  · split
    · exact .inr ⟨argument, none, rfl⟩
    · exact .inl rfl

theorem scan_of_openHost (hopen : openHost s config = some (.ok h)) :
    (Host.fresh s.libraries).scan s.files config.infoDirectory = some (.ok h) := by
  obtain ⟨scanned, hscan, hok⟩ := Option.map_eq_some_iff.mp hopen
  rw [mapError_eq_ok_iff] at hok
  exact hok ▸ hscan

theorem openHost_machine (hopen : openHost s config = some (.ok h)) : h.machine = s.libraries := by
  obtain ⟨_, _, rfl⟩ := Host.scan_eq_ok (scan_of_openHost hopen)
  rfl

/-- The steps are those of a load of a vetted file, with the owner that is demanded. -/
inductive OneLoad (s : Surroundings) (options : Options) : List LoadStep → Prop where
  | none : OneLoad s options []
  | load (directory name service h) (hfresh : h.machine = s.libraries) :
      OneLoad s options ((Libraries.loader directory s.files).loadFile s.files name service
        ⟨demandedOwner s options, Option.none⟩ h).steps

theorem answer_steps (hconfig : settings s options = some (.ok config))
    (hopen : openHost s config = some (.ok h)) (json : Bool) (request : Request) :
    OneLoad s options (answer s config h json request).steps ∧
      (request = .list → (answer s config h json request).steps = []) := by
  unfold answer
  split
  · exact ⟨.none, fun _ => rfl⟩
  · rename_i argument hargument
    refine ⟨?_, ?_⟩
    · simp only
      rcases openPlugin_steps s config h argument with hnone | ⟨name, service, hload⟩
      · rw [hnone]
        exact .none
      · rw [hload, requiredOwner_settings hconfig]
        exact .load _ name service h (openHost_machine hopen)
    · rintro rfl
      cases hargument

theorem perform_steps {part : Part String} (hpart : perform s options request = some part) :
    OneLoad s options part.steps ∧ (request = .list → part.steps = []) := by
  obtain ⟨e | config, hconfig, hpart⟩ := Option.bind_eq_some_iff.mp hpart
  · cases hpart
    exact ⟨.none, fun _ => rfl⟩
  · obtain ⟨e | h, hopen, hpart⟩ := Option.bind_eq_some_iff.mp hpart
    · cases hpart
      exact ⟨.none, fun _ => rfl⟩
    · cases hpart
      exact answer_steps hconfig hopen options.json request

@[simp] theorem Part.steps_outcome (part : Part String) : part.outcome.steps = part.steps := by
  unfold Part.outcome
  split <;> rfl

theorem run_steps (s : Surroundings) (arguments : List String) :
    (run s arguments).steps = [] ∨ ∃ options request, read arguments = .run options request ∧
      request ≠ .list ∧ OneLoad s options (run s arguments).steps := by
  unfold run
  split
  · exact .inl rfl
  · exact .inl rfl
  · exact .inl rfl
  · rename_i options request hread
    cases hpart : perform s options request with
    | none => exact .inl rfl
    | some part =>
        obtain ⟨hload, hlist⟩ := perform_steps hpart
        simp only [Part.steps_outcome]
        by_cases hrequest : request = .list
        · exact .inl (hlist hrequest)
        · exact .inr ⟨options, request, hread, hrequest, hload⟩

/-! ## What is vetted -/

theorem vetStatus_of_vet {σ : Type} {fs : FileSystem} {owner : Option Nat} {path : String}
    {state : σ} (h : (vet fs ⟨owner, none⟩ path state).1 = .ok ()) :
    ∃ status, vetStatus fs owner path = .ok status := by
  unfold vet at h
  split at h
  · cases h
  · rename_i status hstatus
    exact ⟨status, hstatus⟩

theorem probe_absent (directory path : String) (fs : FileSystem) (h : Host Libraries)
    (hnone : h.machine.references = []) :
    ((Libraries.loader directory fs).backend.probe path h).1 = false := by
  simp only [Libraries.loader, Host.backend, Backend.within, Libraries.backend, Libraries.probe]
  split
  · simp [Libraries.isMapped, hnone]
  · rfl

/-- The libraries that a command opens. -/
structure OpensVetted (s : Surroundings) (arguments : List String) : Prop where
  list : ∀ options, read arguments = .run options .list → (run s arguments).steps = []
  /-- A library is opened right after it was vetted, and no other one is opened. -/
  vetted : ∀ before f result after, (run s arguments).steps = before ++ .mapped f result :: after →
    (∃ options request, read arguments = .run options request ∧ request ≠ .list ∧
      before = [.probed f false, .vetted f (demandedOwner s options) (.ok ())] ∧
      ∃ status, vetStatus s.files (demandedOwner s options) f = .ok status) ∧
      ∀ g again, .mapped g again ∉ after
  /-- A factory runs in the library that was opened. -/
  opened : ∀ before f ran after, (run s arguments).steps = before ++ .instantiated f ran :: after →
    .mapped f (.ok ()) ∈ before

theorem OneLoad.vetted {steps : List LoadStep} (hload : OneLoad s options steps)
    {before after : List LoadStep} {f : String} {result : Except String Unit}
    (hs : steps = before ++ .mapped f result :: after) :
    before = [.probed f false, .vetted f (demandedOwner s options) (.ok ())] ∧
      ∃ status, vetStatus s.files (demandedOwner s options) f = .ok status := by
  cases hload with
  | none => simp at hs
  | load directory name service h hfresh =>
      obtain ⟨rfl, probed, clearance, cleared, hp, hc, rfl⟩ :=
        (load_rule (Libraries.loader directory s.files) s.files name _ h).clears_of_mapped hs
      obtain ⟨rfl, hv⟩ := vetted_of_clears hc rfl
      exact ⟨rfl, vetStatus_of_vet hv⟩

theorem OneLoad.opened {steps : List LoadStep} (hload : OneLoad s options steps)
    (hnone : s.libraries.references = []) {before after : List LoadStep} {f : String} {ran : Bool}
    (hs : steps = before ++ .instantiated f ran :: after) : .mapped f (.ok ()) ∈ before := by
  cases hload with
  | none => simp at hs
  | load directory name service h hfresh =>
      obtain ⟨rfl, residency, reached, hr⟩ :=
        (load_rule (Libraries.loader directory s.files) s.files name _ h).reaches_of_instantiated hs
      cases hr with
      | resident probed hp =>
          have hempty : h.machine.references = [] := by rw [hfresh, hnone]
          cases (congrArg Prod.fst hp).symm.trans (probe_absent directory _ s.files h hempty)
      | mapped => simp

/-- Where no library is mapped to begin with, a command opens one library at most, and only one
that was vetted right before with the owner that the configuration file leaves in force. Nothing
else that is said on the command line, in the environment or in a description changes this. -/
theorem run_opens_vetted (s : Surroundings) (arguments : List String)
    (hnone : s.libraries.references = []) : OpensVetted s arguments := by
  have hsteps := run_steps s arguments
  have hloads : ∀ before f result after,
      (run s arguments).steps = before ++ .mapped f result :: after →
      ∃ options request, read arguments = .run options request ∧ request ≠ .list ∧
        before = [.probed f false, .vetted f (demandedOwner s options) (.ok ())] ∧
        ∃ status, vetStatus s.files (demandedOwner s options) f = .ok status := by
    intro before f result after hs
    rcases hsteps with hempty | ⟨options, request, hread, hrequest, hload⟩
    · simp [hempty] at hs
    · exact ⟨options, request, hread, hrequest, hload.vetted hs⟩
  constructor
  case list =>
    intro options hread
    rcases hsteps with hempty | ⟨options', request, hread', hrequest, _⟩
    · exact hempty
    · rw [hread] at hread'
      cases hread'
      exact absurd rfl hrequest
  case vetted =>
    intro before f result after hs
    refine ⟨hloads before f result after hs, ?_⟩
    intro g again hmem
    -- every opening is the third step, so there is no second one
    obtain ⟨between, rest, rfl⟩ := List.append_of_mem hmem
    obtain ⟨_, _, _, _, hfirst, _⟩ := hloads before f result _ hs
    obtain ⟨_, _, _, _, hsecond, _⟩ :=
      hloads (before ++ .mapped f result :: between) g again rest (by simpa using hs)
    have hlength := congrArg List.length hsecond
    simp [hfirst] at hlength
  case opened =>
    intro before f ran after hs
    rcases hsteps with hempty | ⟨options, request, _, _, hload⟩
    · simp [hempty] at hs
    · exact hload.opened hnone hs

/-- A machine with one library, on which nobody owns a file but the superuser. -/
def tunnelMachine : Surroundings where
  files := .holding [(["tunnel.so"], .plainFile ByteArray.empty)] ⟨1000, 1000, []⟩
  libraries := .ofKnown [(.file ["tunnel.so"], .editor (.error none))]
  environment := ⟨none, none⟩

theorem run_opens_vetted_tunnel :
    let arguments := ["show", "/tunnel.so"]
    read arguments = .run .none (.inspect "/tunnel.so") ∧
      tunnelMachine.libraries.references = [] ∧ demandedOwner tunnelMachine .none = some 1000 ∧
      .mapped "/tunnel.so" (.ok ()) ∈ (run tunnelMachine arguments).steps ∧
      OpensVetted tunnelMachine arguments := by
  intro arguments
  have hnone : tunnelMachine.libraries.references = [] := rfl
  have hmapped : .mapped "/tunnel.so" (.ok ()) ∈ (run tunnelMachine arguments).steps :=
    List.mem_of_getElem? (i := 2) rfl
  exact ⟨rfl, hnone, rfl, hmapped, run_opens_vetted tunnelMachine arguments hnone⟩

end PluginHost.CommandLine
