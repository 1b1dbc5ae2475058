import PluginHost.Files.Vetting
import PluginHost.Instance
import PluginHost.Loader.Factory

/-!
# Loading a plugin

A load goes through fixed steps: find the file, ask whether the library is mapped already, vet the
file and map the library if it is not, run the factory, give the reference back or keep it, and
check who the instance says it is. A report lists the steps that were taken.
-/

namespace PluginHost

/-- The operating system's way with libraries, over some state of the machine. -/
structure Backend (σ : Type) where
  probe : String → σ → Bool × σ
  map : String → σ → Except String Unit × σ
  /-- Finds the factory of a mapped library and runs it; fails if there is none. -/
  instantiate : String → σ → Except String FactoryOutcome × σ
  release : String → σ → σ
  /-- Keeps a reference for good. -/
  keep : String → σ → σ

inductive LoadStep where
  | probed (path : String) (resident : Bool)
  | vetted (path : String) (owner : Option Nat) (result : Except HostError Unit)
  | mapped (path : String) (result : Except String Unit)
  /-- The factory was looked up; it ran if it was found. -/
  | instantiated (path : String) (ran : Bool)
  | released (path : String)
  | kept (path : String)

structure LoadOptions (σ : Type) where
  /-- A bare name stands for a file in the plugin directory, and the file is vetted. -/
  checked : Bool
  service : Option String
  rules : VettingRules σ

structure PluginLoader (σ : Type) where
  directory : String
  backend : Backend σ

/-- The steps of a load, its result, and the state it leaves. -/
structure LoadReport (σ : Type) where
  steps : List LoadStep
  result : Except HostError EditorPlugin
  state : σ

/-- The end of the names of archives, which never stand for a library in the plugin directory. -/
def archiveSuffix : List Char := ['.', 'l', 'a']

def resolveName (directory name : String) (checked : Bool) : String :=
  if checked && !name.toList.contains '/' && !archiveSuffix.isSuffixOf name.toList then
    Path.join directory name
  else name

def checkIdentity (plugin : Plugin) (name : String) (service : Option String) :
    Except HostError Unit :=
  if plugin.name.isEmpty then .error (.missingName name)
  else
    match service with
    | none => .ok ()
    | some expected =>
      if plugin.service = expected then .ok ()
      else .error (.serviceMismatch name expected plugin.service)

def welcome (name path : String) (service : Option String) (residency : Residency) :
    FactoryOutcome → Except HostError EditorPlugin
  | .error (some reason) => .error (.factoryFailed name reason)
  | .error none => .error (.unknownInitError name)
  | .ok plugin =>
    match checkIdentity plugin name service with
    | .error e => .error e
    | .ok () => .ok (EditorPlugin.ofLibrary plugin path residency)

/-- Goes on with a reference to a mapped library: runs the factory, and then gives the reference
back if the library was mapped before, and keeps it otherwise. -/
def useModule {σ : Type} (backend : Backend σ) (options : LoadOptions σ) (name path : String)
    (residency : Residency) (before : List LoadStep) (state : σ) : LoadReport σ :=
  match backend.instantiate path state with
  | (.error reason, after) =>
    ⟨before ++ [.instantiated path false, .released path],
      .error (.loadError name ("failed to resolve the plugin factory: " ++ reason)),
      backend.release path after⟩
  | (.ok outcome, after) =>
    let result := welcome name path options.service residency outcome
    match residency with
    | .released =>
      ⟨before ++ [.instantiated path true, .released path], result, backend.release path after⟩
    | _ => ⟨before ++ [.instantiated path true, .kept path], result, backend.keep path after⟩

def mapModule {σ : Type} (backend : Backend σ) (options : LoadOptions σ) (name path : String)
    (before : List LoadStep) (state : σ) : LoadReport σ :=
  match backend.map path state with
  | (.error reason, after) =>
    ⟨before ++ [.mapped path (.error reason)], .error (.loadError name reason), after⟩
  | (.ok (), after) =>
    useModule backend options name path .keptResident (before ++ [.mapped path (.ok ())]) after

def PluginLoader.load {σ : Type} (loader : PluginLoader σ) (fs : FileSystem) (name : String)
    (options : LoadOptions σ) (state : σ) : LoadReport σ :=
  let backend := loader.backend
  let path := resolveName loader.directory name options.checked
  if name.isEmpty then ⟨[], .error (.loadError "" "empty plugin name"), state⟩
  else
    match backend.probe path state with
    | (true, probed) =>
      useModule backend options name path .released [.probed path true] probed
    | (false, probed) =>
      if options.checked then
        match vet fs options.rules path probed with
        | (.error e, after) =>
          ⟨[.probed path false, .vetted path options.rules.owner (.error e)], .error e, after⟩
        | (.ok (), after) =>
          mapModule backend options name path
            [.probed path false, .vetted path options.rules.owner (.ok ())] after
      else mapModule backend options name path [.probed path false] probed

/-- Loads a plugin whose file is vetted before it is mapped. -/
def PluginLoader.loadFile {σ : Type} (loader : PluginLoader σ) (fs : FileSystem) (name : String)
    (service : Option String) (rules : VettingRules σ) (state : σ) : LoadReport σ :=
  loader.load fs name ⟨true, service, rules⟩ state

/-- Loads a plugin by the name under which the operating system finds it, without any check of its
file. -/
def PluginLoader.loadUnchecked {σ : Type} (loader : PluginLoader σ) (fs : FileSystem)
    (name : String) (service : Option String) (state : σ) : LoadReport σ :=
  loader.load fs name ⟨false, service, ⟨none, none⟩⟩ state

/-! ## Loads one after the other -/

structure LoadRequest (σ : Type) where
  files : FileSystem
  directory : String
  name : String
  options : LoadOptions σ

variable {σ : Type}

def LoadRequest.path (r : LoadRequest σ) : String :=
  resolveName r.directory r.name r.options.checked

def LoadRequest.perform (backend : FileSystem → Backend σ) (r : LoadRequest σ) (state : σ) :
    LoadReport σ :=
  PluginLoader.load ⟨r.directory, backend r.files⟩ r.files r.name r.options state

def stateAfter (backend : FileSystem → Backend σ) : σ → List (LoadRequest σ) → σ
  | state, [] => state
  | state, r :: rest => stateAfter backend (r.perform backend state).state rest

def journal (backend : FileSystem → Backend σ) : σ → List (LoadRequest σ) → List LoadStep
  | _, [] => []
  | state, r :: rest =>
    let report := r.perform backend state
    report.steps ++ journal backend report.state rest

end PluginHost
