import PluginHost.Host

/-!
# Loading through a description

A description keeps the first instance that was made for it. Nothing is locked while a library is
loaded, so a load may find at its end that another one was faster.
-/

namespace PluginHost.Host

variable {σ : Type}

/-- Lets a description keep an instance, unless it keeps one already; the one that it keeps then. -/
def settle (h : Host σ) (record number : Nat) : Nat × Host σ :=
  match h.cached? record with
  | some first => (first, h)
  | none => (number, { h with caches := h.caches ++ [(record, number)] })

def noLibrary (info : PluginInfo) : HostError :=
  .failed ("plugin info " ++ info.name ++ " does not name an editor plugin")

/-- Makes an instance for a description, links it to the description, and settles which instance
the description keeps. -/
def finishLoad (h : Host σ) (record : Record) (p : EditorPlugin) : Nat × Host σ :=
  let (number, grown) := h.adopt (p.setRecord (fun _ => true) (some (h.linkedAs record)))
  grown.settle record.id number

/-- The result of loading through a description, the steps of its load, and the host after it. -/
structure RecordReport (σ : Type) where
  steps : List LoadStep
  result : Except HostError Nat
  host : Host σ

/-- The editor plugin of a description: the instance it keeps, or else a new one from its library,
which has to be for its service. -/
def loadRecord (loader : PluginLoader (Host σ)) (fs : FileSystem) (record : Record)
    (owner : Option Nat) (h : Host σ) : RecordReport σ :=
  match h.cached? record.id with
  | some number => ⟨[], .ok number, h⟩
  | none =>
    match record.info.plugin with
    | none => ⟨[], .error (noLibrary record.info), h⟩
    | some library =>
      let report := loader.loadFile fs library (some record.info.service) ⟨owner, none⟩ h
      match report.result with
      | .error e => ⟨report.steps, .error e, report.state⟩
      | .ok p =>
        let (number, after) := report.state.finishLoad record p
        ⟨report.steps, .ok number, after⟩

end PluginHost.Host
