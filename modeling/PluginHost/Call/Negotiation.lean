import PluginHost.Plugin

/-!
# Checked calls

The only way to a plugin's call handler. A signature is queried for every call, and the handler
runs only if all types and both counts are the declared ones; afterwards the slots still have to
hold their types.
-/

namespace PluginHost

/-- The handler and the signature it declares for a call, with the history after the query. A call
that the plugin does not have leaves no trace. -/
def negotiate (plugin : Plugin) (history : History) (call : String) :
    Except HostError (CallHandler × Signature) × History :=
  match plugin.handler with
  | none => (.error (.unsupportedCall call), history)
  | some handler =>
    match handler.signature call with
    | none => (.error (.unsupportedCall call), history)
    | some declared =>
      let answer := declared history
      let after := history ++ [.queried call answer]
      match answer with
      | none => (.error (.unsupportedCall call), after)
      | some signature => (.ok (handler, signature), after)

/-- What a checked call leaves behind. -/
structure CallReport where
  result : Except HostError Unit
  slots : List CallValue
  history : History

/-- Runs a call whose inputs and slots were checked against a signature. -/
def runChecked (handler : CallHandler) (signature : Signature) (history : History) (call : String)
    (inputs slots : List CallValue) : CallReport :=
  let run := handler.run history call inputs slots
  let written := run.apply slots
  let after := history ++ [.invoked call inputs slots]
  match run.outcome with
  | .ok () => ⟨signature.checkOutputs call written, written, after⟩
  | .error (some reason) => ⟨.error (.callFailed call reason), written, after⟩
  | .error none => ⟨.error (.unsupportedCall call), written, after⟩

/-- Calls a plugin with explicit inputs and output slots. -/
def callWith (plugin : Plugin) (history : History) (call : String)
    (inputs slots : List CallValue) : CallReport :=
  match negotiate plugin history call with
  | (.error e, after) => ⟨.error e, slots, after⟩
  | (.ok (handler, signature), after) =>
    match signature.checkInputs call inputs with
    | .error e => ⟨.error e, slots, after⟩
    | .ok () =>
      match signature.checkOutputs call slots with
      | .error e => ⟨.error e, slots, after⟩
      | .ok () => runChecked handler signature after call inputs slots

end PluginHost
