import PluginHost.Call.Pending

/-!
# Callers

A caller of one plugin makes checked calls, builds calls and copies outputs back, in any order and
with any number of calls at once.
-/

namespace PluginHost

/-- What a caller of one plugin has at hand. -/
structure Caller where
  history : History
  calls : List PendingCall
  outputs : List CallOutputs

/-- One step of a caller. Calls under construction and outputs are meant by their places. -/
inductive CallerStep where
  | callWith (call : String) (inputs slots : List CallValue)
  | start (call : String)
  /-- The type under which an argument is offered need not be that of its value. -/
  | arg (place : Nat) (tag : TypeTag) (value : CallValue)
  | argValue (place : Nat) (value : CallValue)
  | invoke (place : Nat)
  | take (place : Nat) (tag : TypeTag)
  | takeValue (place : Nat) (tag : TypeTag)
  | finish (place : Nat)
  | extract (place : Nat) (tags : List TypeTag)
  | intoValues (place : Nat)

namespace Caller

def fresh (history : History) : Caller := ⟨history, [], []⟩

/-- Goes on with a call under construction, which is given up if that fails. -/
def build (b : Caller) (place : Nat) (append : PendingCall → Except HostError PendingCall) :
    Caller :=
  { b with calls :=
      match b.calls[place]? with
      | none => b.calls
      | some c =>
        match append c with
        | .ok next => b.calls.set place next
        | .error _ => b.calls.eraseIdx place }

/-- Copies back an output, if that succeeds. -/
def copy {α : Type} (b : Caller) (place : Nat)
    (request : CallOutputs → Except HostError (α × CallOutputs)) : Caller :=
  { b with outputs :=
      match b.outputs[place]? with
      | none => b.outputs
      | some o =>
        match request o with
        | .ok (_, rest) => b.outputs.set place rest
        | .error _ => b.outputs }

/-- Is done with the outputs of a call, whatever the last request for them gave. -/
def close (b : Caller) (place : Nat) : Caller :=
  { b with outputs := b.outputs.eraseIdx place }

def complete (b : Caller) (place : Nat) : Caller :=
  match b.calls[place]? with
  | none => b
  | some c =>
    match c.invoke b.history with
    | (.ok o, after) => ⟨after, b.calls.eraseIdx place, b.outputs ++ [o]⟩
    | (.error _, after) => ⟨after, b.calls.eraseIdx place, b.outputs⟩

def beginCall (plugin : Plugin) (b : Caller) (call : String) : Caller :=
  match PendingCall.start plugin b.history call with
  | (.ok c, after) => ⟨after, b.calls ++ [c], b.outputs⟩
  | (.error _, after) => ⟨after, b.calls, b.outputs⟩

def step (plugin : Plugin) (b : Caller) : CallerStep → Caller
  | .callWith call inputs slots =>
    { b with history := (PluginHost.callWith plugin b.history call inputs slots).history }
  | .start call => b.beginCall plugin call
  | .arg place tag value => b.build place fun c => c.pushAs tag value
  | .argValue place value => b.build place fun c => c.push value
  | .invoke place => b.complete place
  | .take place tag => b.copy place fun o => o.take tag
  | .takeValue place tag => b.copy place fun o => o.takeValue tag
  | .finish place => b.close place
  | .extract place _ => b.close place
  | .intoValues place => b.close place

def run (plugin : Plugin) (b : Caller) : List CallerStep → Caller
  | [] => b
  | step :: rest => run plugin (b.step plugin step) rest

/-- The checked call that a step makes: its name, its inputs and its slots. A call under
construction is made only if its inputs are complete. -/
def request? (b : Caller) : CallerStep → Option (String × List CallValue × List CallValue)
  | .callWith call inputs slots => some (call, inputs, slots)
  | .invoke place =>
    match b.calls[place]? with
    | some c =>
      if c.inputs.length = c.signature.inputs.length then
        some (c.call, c.inputs, c.signature.outputSlots)
      else none
    | none => none
  | _ => none

end Caller

end PluginHost
