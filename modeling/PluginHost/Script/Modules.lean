import PluginHost.Files.Vetting
import PluginHost.Host.RecordLoading
import PluginHost.Script.Plugin

/-!
# Scripted libraries and policies

Libraries whose behaviour is written down: which ones are mapped already, what fails, and what is
loaded while a factory runs. Every request to the system is noted in the host's journal. A policy
refuses every file, or files that are too long or have the wrong suffix.
-/

namespace PluginHost.Script

/-! ## Policies -/

structure PolicyScript where
  refusal : Option String
  greatestLength : Option Nat
  suffix : Option String

def PolicyScript.verdict (script : PolicyScript) (path : String) (status : FileStatus) :
    Except String Unit :=
  match script.refusal with
  | some reason => .error reason
  | none =>
    if script.greatestLength.any (· < status.length) then .error "too large"
    else if script.suffix.any fun s => !s.toList.isSuffixOf path.toList then .error "bad suffix"
    else .ok ()

/-- The policy that notes every file it is asked about. -/
def PolicyScript.policy {σ : Type} (script : PolicyScript)
    (note : String → FileStatus → σ → σ) : FilePolicy σ :=
  fun path status state => (script.verdict path status, note path status state)

/-! ## Libraries -/

structure ModuleScript where
  resident : Bool
  mapFailure : Option String
  lookupFailure : Option String
  /-- What its constructor gives. -/
  product : Except String PluginScript
  /-- The description, by its name, through which is loaded when the factory runs for the first
  time. -/
  reenters : Option String

/-- The scripted libraries of a machine and what became of them. -/
structure Modules where
  scripts : List (String × ModuleScript)
  kept : List String
  /-- The libraries whose factory was asked for. -/
  tried : List String

namespace Modules

def ofScripts (scripts : List (String × ModuleScript)) : Modules := ⟨scripts, [], []⟩

def script? (m : Modules) (path : String) : Option ModuleScript :=
  m.scripts.lookup path

/-- Whether a library is mapped before it is asked for. -/
def isResident (m : Modules) (path : String) : Bool :=
  match m.script? path with
  | some script => script.resident || m.kept.contains path
  | none => false

def map (m : Modules) (path : String) : Except String Unit :=
  match m.script? path with
  | none => .error (path ++ ": cannot open shared object file")
  | some script =>
    match script.mapFailure with
    | some reason => .error reason
    | none => .ok ()

end Modules

def ModuleScript.outcome (script : ModuleScript) : FactoryOutcome :=
  exportFactory (script.product.map PluginScript.plugin)

def instanceName (h : Host Modules) (number : Nat) : String :=
  match h.instances[number]? with
  | some p => p.plugin.name
  | none => ""

/-- Runs the factory of a library. What is loaded meanwhile is left to `load`. -/
def runFactory (load : Record → Host Modules → Host.RecordReport Modules) (path : String)
    (h : Host Modules) : Except String FactoryOutcome × Host Modules :=
  let first := !h.machine.tried.contains path
  let noted := { h.note (.instantiated path) with
    machine := { h.machine with tried := path :: h.machine.tried } }
  match h.machine.script? path with
  | none => (.error "no such library", noted)
  | some script =>
    match script.lookupFailure with
    | some reason => (.error reason, noted)
    | none =>
      match first, script.reenters.bind fun name => List.lookup name noted.records with
      | true, some record =>
        let report := load record noted
        let result := report.result.map (instanceName report.host)
        (.ok script.outcome, report.host.note (.reentered result))
      | _, _ => (.ok script.outcome, noted)

/-- The way with scripted libraries, where `load` is how one loads while a factory runs. -/
def backendWith (load : Record → Host Modules → Host.RecordReport Modules) :
    Backend (Host Modules) where
  probe path h := (h.machine.isResident path, h.note (.probed path))
  map path h := (h.machine.map path, h.note (.mapped path))
  instantiate path h := runFactory load path h
  release path h := h.note (.released path)
  keep path h :=
    { h.note (.kept path) with machine := { h.machine with kept := path :: h.machine.kept } }

/-- The way with scripted libraries, with at most so many loads inside each other. Only the first
run of a factory loads anything, so the number of libraries is enough. -/
def backendTo (directory : String) (fs : FileSystem) : Nat → Backend (Host Modules)
  | 0 => backendWith fun _ h => ⟨[], .error (.failed "no library is left"), h⟩
  | depth + 1 => backendWith fun record h =>
    Host.loadRecord ⟨directory, backendTo directory fs depth⟩ fs record none h

def loader (directory : String) (fs : FileSystem) (scripts : List (String × ModuleScript)) :
    PluginLoader (Host Modules) :=
  ⟨directory, backendTo directory fs scripts.length⟩

def noteConsulted {σ : Type} (path : String) (status : FileStatus) (h : Host σ) : Host σ :=
  h.note (.consulted path status.length)

end PluginHost.Script
