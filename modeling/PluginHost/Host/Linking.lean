import PluginHost.Host

/-!
# Links and the life of descriptions

An instance is linked to one description after the other, and in between descriptions are made,
shared and given up. An instance is told of a link only when the link is there already.
-/

namespace PluginHost

namespace EditorPlugin

/-- The instance with its link set, before it is told. -/
def relinked (p : EditorPlugin) (alive : Nat → Bool) (target : Option Linked) : EditorPlugin :=
  { p with link := (p.link.set alive (target.map Linked.record)).2 }

theorem setRecord_none (p : EditorPlugin) (alive : Nat → Bool) :
    p.setRecord alive none = p.relinked alive none := by
  simp only [setRecord, relinked]
  split <;> simp_all

theorem setRecord_some (p : EditorPlugin) (alive : Nat → Bool) (t : Linked) :
    p.setRecord alive (some t) =
      if p.link.isLinkedTo t.record then p.relinked alive (some t)
      else (p.relinked alive (some t)).notify alive t := by
  by_cases hlinked : p.link.isLinkedTo t.record = true
  · simp [setRecord, relinked, WeakLink.set, hlinked]
  · simp [setRecord, relinked, WeakLink.set, hlinked]

end EditorPlugin

inductive LinkingStep where
  | describe (name : String) (info : PluginInfo)
  /-- A description that is alive is held under a name as well. -/
  | share (name : String) (record : Record)
  | drop (name : String)
  | enroll (info : PluginInfo)
  | scan (files : FileSystem) (directory : String)
  | link (record : Record)
  | unlink

namespace Host

variable {σ : Type}

/-- The description that an instance is linked to, if it is alive. -/
def linkOf? (h : Host σ) (number : Nat) : Option Record :=
  h.instances[number]?.bind h.linkedRecord?

/-- The host after a step that is about one of its instances. -/
def linkingStep (number : Nat) (h : Host σ) : LinkingStep → Host σ
  | .describe name info => h.describe name info
  | .share name record => if record ∈ h.liveRecords then h.hold name record else h
  | .drop name => h.dropRecord name
  | .enroll info => ((h.enroll info).map Prod.snd).toOption.getD h
  | .scan files directory => ((h.scan files directory).bind Except.toOption).getD h
  | .link record => if record ∈ h.liveRecords then h.relink number (some record) else h
  | .unlink => h.relink number none

def linkingRun (number : Nat) (h : Host σ) (steps : List LinkingStep) : Host σ :=
  steps.foldl (linkingStep number) h

/-- What an instance is told of a description, while it shows that description already. -/
def notice (h : Host σ) (record : Record) : PluginEvent :=
  .linked record.id record.info.name (h.cached? record.id).isSome (some record.id)

/-- What an instance has to be told in a step: of a description that it was not linked to. -/
def notice? (number : Nat) (h : Host σ) : LinkingStep → Option PluginEvent
  | .link record =>
    if record ∈ h.liveRecords ∧ h.linkOf? number ≠ some record then some (h.notice record)
    else none
  | _ => none

def notices (number : Nat) (h : Host σ) : List LinkingStep → History
  | [] => []
  | s :: rest => (h.notice? number s).toList ++ (h.linkingStep number s).notices number rest

end Host

end PluginHost
