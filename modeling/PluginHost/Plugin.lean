import PluginHost.Connection
import PluginHost.Flags
import PluginHost.Signature

/-!
# Plugins

A plugin is a table of functions. Its generic calls may answer differently each time, so they are
functions of what the plugin has been through: its history is the whole of its state.
-/

namespace PluginHost

inductive PluginEvent where
  | queried (call : String) (answer : Option Signature)
  /-- A call was run with checked inputs and output slots. -/
  | invoked (call : String) (inputs slots : List CallValue)
  /-- The instance was told that it is linked to a record. With it stands whether the record had a
  cached instance then, and which record the link of the instance showed at that moment. -/
  | linked (record : Nat) (name : String) (cached : Bool) (shown : Option Nat)
  deriving DecidableEq

/-- What happened to a plugin instance, the oldest event first. -/
abbrev History := List PluginEvent

namespace PluginEvent

def isQuery : PluginEvent → Bool
  | .queried .. => true
  | _ => false

def isInvocation : PluginEvent → Bool
  | .invoked .. => true
  | _ => false

def isQueryOf (call : String) : PluginEvent → Bool
  | .queried name _ => name == call
  | _ => false

end PluginEvent

namespace History

def invocations (h : History) : List PluginEvent :=
  h.filter PluginEvent.isInvocation

def latestAnswer? (h : History) (call : String) : Option (Option Signature) :=
  h.reverse.findSome? fun
    | .queried name answer => if name = call then some answer else none
    | _ => none

end History

/-- What one run of a call handler does: values written to slots, in order, and the outcome. A
failure comes with a reason or without. -/
structure HandlerRun where
  writes : List (Nat × CallValue)
  outcome : Except (Option String) Unit

/-- The slots after a run's writes. A write to a slot that does not exist has no effect. -/
def HandlerRun.apply (run : HandlerRun) (slots : List CallValue) : List CallValue :=
  run.writes.foldl (fun current write => current.set write.1 write.2) slots

@[simp] theorem HandlerRun.length_apply (run : HandlerRun) (slots : List CallValue) :
    (run.apply slots).length = slots.length := by
  unfold HandlerRun.apply
  induction run.writes generalizing slots with
  | nil => rfl
  | cons write rest ih => simp [ih]

structure CallHandler where
  /-- The signature that a call has after what happened so far, if the plugin has such a call. -/
  signature : String → Option (History → Option Signature)
  run : History → String → List CallValue → List CallValue → HandlerRun

/-- An editor of one connection: what it makes of the connection, and whether it failed. -/
structure Editor where
  update : Connection → Connection × Except String Unit

/-- The contract of an editor plugin. An optional operation gives nothing if it is missing. -/
structure Plugin where
  name : String
  description : String
  service : String
  capabilities : Capabilities
  /-- The generic calls. A handler that comes and goes is one that answers no query at times. -/
  handler : Option CallHandler
  editor : Option Connection → Except String Editor
  importFile : String → Option (Except String Connection)
  exportFile : String → Connection → Option (Except String Unit)
  suggestedName : Connection → Option String

end PluginHost
