import PluginHost.Call.Negotiation
import PluginHost.Call.Outputs
import PluginHost.Value.Text

/-!
# Calls under construction

The inputs of a call are collected one by one, each checked as it comes. The call itself goes the
same way as any other, under a signature queried anew.
-/

namespace PluginHost

/-- A call under construction. -/
structure PendingCall where
  plugin : Plugin
  call : String
  signature : Signature
  inputs : List CallValue

namespace PendingCall

/-- Begins a call by querying its signature. -/
def start (plugin : Plugin) (history : History) (call : String) :
    Except HostError PendingCall × History :=
  match negotiate plugin history call with
  | (.error e, after) => (.error e, after)
  | (.ok (_, signature), after) => (.ok ⟨plugin, call, signature, []⟩, after)

/-- Appends an input that is offered under a type, which has to be the one declared at its
position. -/
def pushAs (c : PendingCall) (tag : TypeTag) (value : CallValue) : Except HostError PendingCall :=
  match c.signature.expectInput c.call c.inputs.length tag with
  | .ok () => .ok { c with inputs := c.inputs ++ [value] }
  | .error e => .error e

def push (c : PendingCall) (value : CallValue) : Except HostError PendingCall :=
  c.pushAs value.tag value

def pushTyped (c : PendingCall) (tag : TypeTag) (x : tag.Carrier) : Except HostError PendingCall :=
  c.pushAs tag (CallValue.ofCarrier tag x)

def pushAll (c : PendingCall) : List CallValue → Except HostError PendingCall
  | [] => .ok c
  | value :: rest =>
    match c.push value with
    | .ok next => next.pushAll rest
    | .error e => .error e

def invoke (c : PendingCall) (history : History) : Except HostError CallOutputs × History :=
  let declared := c.signature.inputs.length
  if c.inputs.length = declared then
    let report := callWith c.plugin history c.call c.inputs c.signature.outputSlots
    match report.result with
    | .ok () => (.ok ⟨c.call, c.signature, report.slots, 0⟩, report.history)
    | .error e => (.error e, report.history)
  else
    (.error (.invalidArgument c.call (.count .input c.inputs.length declared)), history)

def description (c : PendingCall) : String :=
  Text.described "PluginCall"
    [("plugin", Text.quoted c.plugin.name), ("call_name", Text.quoted c.call),
      ("signature", c.signature.description),
      ("args_in", Text.bracketed (c.inputs.map CallValue.description))]

end PendingCall

def callThrough (plugin : Plugin) (history : History) (call : String) (inputs : List CallValue) :
    Except HostError CallOutputs × History :=
  match PendingCall.start plugin history call with
  | (.error e, after) => (.error e, after)
  | (.ok begun, after) =>
    match begun.pushAll inputs with
    | .error e => (.error e, after)
    | .ok ready => ready.invoke after

/-- Begins a call, collects its inputs, runs it and copies all outputs back as a tuple. -/
def callTyped (plugin : Plugin) (history : History) (call : String) (inputs : List CallValue)
    (tags : List TypeTag) : Except HostError (TypeTag.Tuple tags) × History :=
  match callThrough plugin history call inputs with
  | (.error e, after) => (.error e, after)
  | (.ok outputs, after) => (outputs.extract tags, after)

end PluginHost
