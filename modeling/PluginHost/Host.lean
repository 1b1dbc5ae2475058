import PluginHost.Info.Catalog
import PluginHost.Loader.Load
import PluginHost.Named

/-!
# Hosts

A host owns the plugin instances that were made and the descriptions that it knows. Instances and
descriptions are numbered in the order in which they were made and the numbers are never used
again, so a number always means the same thing. A description lives as long as a name or the catalog
holds it; an instance that it keeps is given up with it.
-/

namespace PluginHost

/-- One thing that is noted while a plugin is loaded. -/
inductive Event where
  | probed (path : String)
  | mapped (path : String)
  | instantiated (path : String)
  | released (path : String)
  | kept (path : String)
  | consulted (path : String) (length : Nat)
  /-- The plugin of a description was loaded while a factory ran: its name, or why it failed. -/
  | reentered (result : Except HostError String)

/-- The state of a host; `σ` is what the machine around it keeps. -/
structure Host (σ : Type) where
  instances : List EditorPlugin
  /-- The instance a description keeps. -/
  caches : List (Nat × Nat)
  nextRecord : Nat
  catalog : Catalog
  records : Named Record
  plugins : Named Nat
  /-- What was noted, the oldest event first. -/
  journal : List Event
  machine : σ

namespace Host

variable {σ : Type}

def fresh (machine : σ) : Host σ := ⟨[], [], 0, Catalog.empty, [], [], [], machine⟩

def note (h : Host σ) (event : Event) : Host σ :=
  { h with journal := h.journal ++ [event] }

/-! ## Descriptions -/

def register (h : Host σ) (info : PluginInfo) : Record × Host σ :=
  (⟨h.nextRecord, info⟩, { h with nextRecord := h.nextRecord + 1 })

/-- The descriptions that somebody holds. -/
def liveRecords (h : Host σ) : List Record :=
  h.records.things ++ h.catalog.records

def isAlive (h : Host σ) (record : Nat) : Bool :=
  h.liveRecords.any fun r => r.id == record

def liveRecord? (h : Host σ) (record : Nat) : Option Record :=
  h.liveRecords.find? fun r => r.id == record

def hold (h : Host σ) (name : String) (record : Record) : Host σ :=
  { h with records := h.records.put name record }

def describe (h : Host σ) (name : String) (info : PluginInfo) : Host σ :=
  let (record, grown) := h.register info
  grown.hold name record

def dropRecord (h : Host σ) (name : String) : Host σ :=
  { h with records := h.records.remove name }

def enroll (h : Host σ) (info : PluginInfo) : Except HostError (Record × Host σ) :=
  let (record, grown) := h.register info
  match h.catalog.add record with
  | .ok catalog => .ok (record, { grown with catalog := catalog })
  | .error e => .error e

/-- Knows the descriptions of a directory instead of those in the catalog. -/
def scan (h : Host σ) (fs : FileSystem) (directory : String) :
    Option (Except HostError (Host σ)) :=
  (Catalog.scan fs h.nextRecord directory).map fun scanned =>
    scanned.map fun catalog =>
      { h with
        catalog := catalog
        nextRecord := h.nextRecord + catalog.records.length }

/-! ## Instances -/

def cached? (h : Host σ) (record : Nat) : Option Nat :=
  h.caches.lookup record

def adopt (h : Host σ) (p : EditorPlugin) : Nat × Host σ :=
  (h.instances.length, { h with instances := h.instances ++ [p] })

def update (h : Host σ) (number : Nat) (p : EditorPlugin) : Host σ :=
  { h with instances := h.instances.set number p }

def remember (h : Host σ) (number : Nat) (history : History) : Host σ :=
  { h with instances := h.instances.modify number fun p => { p with history := history } }

def holdPlugin (h : Host σ) (name : String) (number : Nat) : Host σ :=
  { h with plugins := h.plugins.put name number }

def dropPlugin (h : Host σ) (name : String) : Host σ :=
  { h with plugins := h.plugins.remove name }

def plugin? (h : Host σ) (name : String) : Option (Nat × EditorPlugin) :=
  (h.plugins.lookup name).bind fun number => h.instances[number]?.map fun p => (number, p)

/-- How many hold an instance: names, and descriptions that are alive. -/
def holderCount (h : Host σ) (number : Nat) : Nat :=
  h.plugins.countP (fun entry => entry.2 == number) +
    h.caches.countP fun entry => entry.2 == number && h.isAlive entry.1

/-- A description as a plugin sees it. -/
def linkedAs (h : Host σ) (record : Record) : EditorPlugin.Linked :=
  ⟨record.id, record.info.name, (h.cached? record.id).isSome⟩

def relink (h : Host σ) (number : Nat) (target : Option Record) : Host σ :=
  match h.instances[number]? with
  | some p => h.update number (p.setRecord h.isAlive (target.map h.linkedAs))
  | none => h

/-- The description to which an instance is linked, if it is alive. -/
def linkedRecord? (h : Host σ) (p : EditorPlugin) : Option Record :=
  (p.link.get? h.isAlive).bind h.liveRecord?

/-- Keeps a loaded instance under a name. -/
def keepLoaded (name : String) (report : LoadReport (Host σ)) :
    Except HostError Nat × Host σ :=
  match report.result with
  | .error e => (.error e, report.state)
  | .ok p =>
    let (number, grown) := report.state.adopt p
    (.ok number, grown.holdPlugin name number)

end Host

end PluginHost
