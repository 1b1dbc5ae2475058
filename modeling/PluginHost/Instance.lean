import PluginHost.Call.Service
import PluginHost.WeakLink

/-!
# Plugin instances

An instance is a plugin with its provenance: the file it was loaded from, what became of the
loader's reference to the library, and the description it is linked to.
-/

namespace PluginHost

/-- What the loader did with its reference to the library. -/
inductive Residency where
  /-- The library stays mapped for good. -/
  | keptResident
  /-- The library was mapped already, and the reference was given back. -/
  | released
  | builtin
  deriving DecidableEq, Repr

def Residency.name : Residency → String
  | .keptResident => "KeptResident"
  | .released => "Released"
  | .builtin => "Builtin"

structure EditorPlugin where
  plugin : Plugin
  /-- The file as it was named to the operating system. -/
  filename : Option String
  residency : Residency
  link : WeakLink
  history : History

namespace EditorPlugin

def ofLibrary (plugin : Plugin) (filename : String) (residency : Residency) : EditorPlugin :=
  ⟨plugin, some filename, residency, WeakLink.empty, []⟩

def builtin (plugin : Plugin) : EditorPlugin :=
  ⟨plugin, none, .builtin, WeakLink.empty, []⟩

def editor (p : EditorPlugin) (connection : Option Connection) : Except HostError Editor :=
  (p.plugin.editor connection).mapError .failed

def require (p : EditorPlugin) (capability : Capabilities) (name : String) :
    Except HostError Unit :=
  if p.plugin.capabilities.contains capability then .ok ()
  else .error (.failed ("the plugin does not support " ++ name ++ " capability"))

def importFile (p : EditorPlugin) (path : String) : Except HostError Connection := do
  p.require .importing "import"
  match p.plugin.importFile path with
  | some result => result.mapError .failed
  | none => .error (.unsupported "import")

def exportFile (p : EditorPlugin) (path : String) (connection : Connection) :
    Except HostError Unit := do
  p.require .exporting "export"
  match p.plugin.exportFile path connection with
  | some result => result.mapError .failed
  | none => .error (.unsupported "export")

/-- A record as a plugin sees it when it is linked. -/
structure Linked where
  record : Nat
  name : String
  /-- The record had a cached instance. -/
  cached : Bool

/-- Tells the plugin of a description. Its link shows then what it shows in `p`. -/
def notify (p : EditorPlugin) (alive : Nat → Bool) (t : Linked) : EditorPlugin :=
  { p with history := p.history ++ [.linked t.record t.name t.cached (p.link.get? alive)] }

/-- Links the instance to a description or to none, and after that tells the plugin of a description
that it was not linked to before. -/
def setRecord (p : EditorPlugin) (alive : Nat → Bool) (target : Option Linked) : EditorPlugin :=
  let (changed, link) := p.link.set alive (target.map Linked.record)
  let linked := { p with link := link }
  match changed, target with
  | true, some t => linked.notify alive t
  | _, _ => linked

def description (p : EditorPlugin) (alive : Nat → Bool) : String :=
  let filename :=
    match p.filename with
    | some path => "Some(" ++ Text.quotedPath path ++ ")"
    | none => "None"
  Text.described "EditorPlugin"
    [("name", Text.quoted p.plugin.name), ("service", Text.quoted p.plugin.service),
      ("filename", filename), ("residency", p.residency.name),
      ("plugin_info", p.link.description alive)]

end EditorPlugin

end PluginHost
