import PluginHost.Plugin
import PluginHost.Text.Pieces
import PluginHost.Value.Text

/-!
# Scripted plugins

A plugin whose answers are written down: signatures that may change from query to query, and for
each call a list of rules of which the first that applies is followed.
-/

namespace PluginHost.Script

structure Rule where
  /-- The inputs, by position, that have to have the given texts. -/
  conditions : List (Nat × String)
  values : List (Nat × CallValue)
  copies : List (Nat × Nat)
  /-- Templates put into slots; a position between braces stands for the text of that input. -/
  templates : List (Nat × String)
  /-- How the call fails, if it fails: with a reason or without. -/
  failure : Option (Option String)

structure CallScript where
  /-- The answers to the queries for its signature; the last one is repeated. -/
  signatures : List (Option Signature)
  rules : List Rule

inductive Response (α : Type) where
  | missing
  | failure (reason : String)
  | success (value : α)

structure EditorScript where
  key : String
  /-- The value if the connection has no such item. -/
  fallback : String
  updateFailure : Option String

structure PluginScript where
  name : String
  description : String
  service : String
  capabilities : Capabilities
  /-- The generic calls; without them the plugin has no call handler. -/
  calls : Option (List (String × CallScript))
  /-- The editor, or why there is none. -/
  editor : Except String EditorScript
  /-- Imported connections; the path stands for its place holder in the name. -/
  imports : Response Connection
  exports : Response Unit
  suggestion : Option String

namespace Rule

def applies (rule : Rule) (inputs : List CallValue) : Bool :=
  rule.conditions.all fun (position, text) =>
    match inputs[position]? with
    | some v => v.text == text
    | none => false

def placeholder (position : Nat) : String :=
  "\x7b" ++ toString position ++ "\x7d"

/-- A template with the inputs in it, from a position on. -/
def fill (template : String) : Nat → List CallValue → String
  | _, [] => template
  | position, v :: rest =>
    fill (Text.replaceAll (placeholder position) v.text template) (position + 1) rest

def run (rule : Rule) (inputs : List CallValue) : HandlerRun :=
  let copied := rule.copies.filterMap fun (slot, position) =>
    inputs[position]?.map fun v => (slot, v)
  let filled := rule.templates.map fun (slot, template) =>
    (slot, CallValue.string (fill template 0 inputs))
  ⟨rule.values ++ copied ++ filled,
    match rule.failure with
    | none => .ok ()
    | some reason => .error reason⟩

end Rule

/-- The answer to a query after a number of earlier ones. -/
def CallScript.answer (call : CallScript) (earlier : Nat) : Option Signature :=
  (call.signatures[min earlier (call.signatures.length - 1)]?).join

def CallScript.run (call : CallScript) (inputs : List CallValue) : HandlerRun :=
  match call.rules.find? fun rule => rule.applies inputs with
  | some rule => rule.run inputs
  | none => ⟨[], .error none⟩

/-- The call handler of scripted calls. A call without any answer is none. -/
def handler (calls : List (String × CallScript)) : CallHandler where
  signature name := do
    let call ← calls.lookup name
    if call.signatures.isEmpty then none
    else some fun history => call.answer (history.countP (PluginEvent.isQueryOf name))
  run _ name inputs _ :=
    match calls.lookup name with
    | some call => call.run inputs
    | none => ⟨[], .error none⟩

def EditorScript.open (script : EditorScript) (connection : Option Connection) : Editor :=
  let value := ((connection.bind fun c => c.dataItem? script.key).getD script.fallback)
  ⟨fun c => (c.setDataItem script.key value,
    match script.updateFailure with
    | none => .ok ()
    | some reason => .error reason)⟩

namespace PluginScript

def plugin (script : PluginScript) : Plugin where
  name := script.name
  description := script.description
  service := script.service
  capabilities := script.capabilities
  handler := script.calls.map Script.handler
  editor connection := script.editor.map fun e => e.open connection
  importFile path :=
    match script.imports with
    | .missing => none
    | .failure reason => some (.error reason)
    | .success connection =>
      some (.ok { connection with id := Text.replaceAll "\x7bpath\x7d" path connection.id })
  exportFile _ _ :=
    match script.exports with
    | .missing => none
    | .failure reason => some (.error reason)
    | .success () => some (.ok ())
  suggestedName connection :=
    script.suggestion.map fun template => Text.replaceAll "\x7bid\x7d" connection.id template

end PluginScript

end PluginHost.Script
