import PluginHost.Error
import PluginHost.Text.Quoted
import PluginHost.Value.Basic

/-!
# Declared types of a call

A plugin declares for each call the types of its inputs and of its outputs. Whether it hands the
tables over or lends them does not matter to what they declare.
-/

namespace PluginHost

structure Signature where
  inputs : List TypeTag
  outputs : List TypeTag
  /-- The table of inputs is handed over to the host. -/
  handsInputs : Bool := false
  handsOutputs : Bool := false
  deriving DecidableEq, Repr

/-- Checks the type at one position against the declared types. -/
def expectTag (direction : Direction) (declared : List TypeTag) (position : Nat) (tag : TypeTag) :
    Except ArgumentFault Unit :=
  match declared[position]? with
  | some expected =>
    if expected = tag then .ok () else .error (.mismatch direction position tag expected)
  | none => .error (.surplus direction position tag declared.length)

def expectTags (direction : Direction) (declared : List TypeTag) :
    Nat → List CallValue → Except ArgumentFault Unit
  | _, [] => .ok ()
  | position, v :: vs =>
    match expectTag direction declared position v.tag with
    | .ok () => expectTags direction declared (position + 1) vs
    | .error fault => .error fault

/-- Checks the types of all values, and then their number. -/
def checkTags (direction : Direction) (declared : List TypeTag) (values : List CallValue) :
    Except ArgumentFault Unit :=
  match expectTags direction declared 0 values with
  | .ok () =>
    if values.length = declared.length then .ok ()
    else .error (.count direction values.length declared.length)
  | .error fault => .error fault

namespace Signature

/-- Either table is handed over. -/
def isOwned (s : Signature) : Bool :=
  s.handsInputs || s.handsOutputs

/-- Two signatures declare the same, whoever owns their tables. -/
def agrees (s t : Signature) : Bool :=
  s.inputs == t.inputs && s.outputs == t.outputs

def outputSlots (s : Signature) : List CallValue :=
  s.outputs.map CallValue.empty

/-- Checks the type of the input at a position while inputs are collected. -/
def expectInput (s : Signature) (call : String) (position : Nat) (tag : TypeTag) :
    Except HostError Unit :=
  (expectTag .input s.inputs position tag).mapError (.invalidArgument call)

def expectOutput (s : Signature) (call : String) (position : Nat) (tag : TypeTag) :
    Except HostError Unit :=
  (expectTag .output s.outputs position tag).mapError (.invalidArgument call)

def checkInputs (s : Signature) (call : String) (values : List CallValue) :
    Except HostError Unit :=
  (checkTags .input s.inputs values).mapError (.invalidArgument call)

def checkOutputs (s : Signature) (call : String) (values : List CallValue) :
    Except HostError Unit :=
  (checkTags .output s.outputs values).mapError (.invalidArgument call)

def description (s : Signature) : String :=
  let table (tags : List TypeTag) := Text.bracketed (tags.map TypeTag.describedName)
  Text.described "CallSignature" [("inputs", table s.inputs), ("outputs", table s.outputs)]

end Signature

end PluginHost
