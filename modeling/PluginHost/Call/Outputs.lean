import PluginHost.Signature

/-!
# Outputs of a completed call

Outputs are copied back one by one, in order, each under its declared type. A request that fails
takes nothing; the call has run all the same, and its faults say so.
-/

namespace PluginHost

/-- The outputs of a completed call that were not copied back yet. -/
structure CallOutputs where
  call : String
  signature : Signature
  values : List CallValue
  /-- The number of outputs that were copied back. -/
  position : Nat
  deriving DecidableEq

/-- Tuples of elements of the tags' types. -/
def TypeTag.Tuple : List TypeTag → Type
  | [] => Unit
  | tag :: tags => tag.Carrier × TypeTag.Tuple tags

/-- The members of a tuple as values. -/
def CallValue.ofTuple : (tags : List TypeTag) → TypeTag.Tuple tags → List CallValue
  | [], _ => []
  | tag :: tags, (x, rest) => CallValue.ofCarrier tag x :: CallValue.ofTuple tags rest

namespace CallOutputs

def completed (o : CallOutputs) (fault : ArgumentFault) : HostError :=
  .invalidArgument o.call (.completed fault)

def remaining (o : CallOutputs) : Nat :=
  o.values.length

def takeValue (o : CallOutputs) (tag : TypeTag) : Except HostError (CallValue × CallOutputs) :=
  match expectTag .output o.signature.outputs o.position tag with
  | .error fault => .error (o.completed fault)
  | .ok () =>
    match o.values with
    | [] => .error (.invalidArgument o.call .exhausted)
    | v :: rest => .ok (v, { o with values := rest, position := o.position + 1 })

/-- Copies back the next output as an element of the tag's type. -/
def take (o : CallOutputs) (tag : TypeTag) : Except HostError (tag.Carrier × CallOutputs) :=
  match o.takeValue tag with
  | .error e => .error e
  | .ok (v, rest) =>
    match v.toCarrier? tag with
    | some x => .ok (x, rest)
    | none => .error (.invalidArgument o.call (.notOf tag))

def finish (o : CallOutputs) : Except HostError Unit :=
  if o.remaining = 0 then .ok () else .error (o.completed (.unclaimed o.remaining))

def takeTuple (o : CallOutputs) :
    (tags : List TypeTag) → Except HostError (TypeTag.Tuple tags × CallOutputs)
  | [] => .ok ((), o)
  | tag :: tags =>
    match o.take tag with
    | .error e => .error e
    | .ok (x, rest) =>
      match rest.takeTuple tags with
      | .error e => .error e
      | .ok (xs, left) => .ok ((x, xs), left)

def extract (o : CallOutputs) (tags : List TypeTag) : Except HostError (TypeTag.Tuple tags) :=
  match o.takeTuple tags with
  | .error e => .error e
  | .ok (xs, left) =>
    match left.finish with
    | .error e => .error e
    | .ok () => .ok xs

end CallOutputs

/-! ## Requests one after the other -/

/-- A request for the next output under a type: for an element of the type, or for a value. -/
inductive OutputRequest where
  | typed (tag : TypeTag)
  | tagged (tag : TypeTag)

def OutputRequest.tag : OutputRequest → TypeTag
  | .typed tag => tag
  | .tagged tag => tag

namespace CallOutputs

def answer (o : CallOutputs) : OutputRequest → Except HostError CallValue
  | .typed tag => (o.take tag).map fun (x, _) => .ofCarrier tag x
  | .tagged tag => (o.takeValue tag).map fun (v, _) => v

/-- The outputs after a request. An output is gone once it was found under its declared type, even
if it turns out not to be of that type. -/
def after (o : CallOutputs) (request : OutputRequest) : CallOutputs :=
  match o.takeValue request.tag with
  | .ok (_, rest) => rest
  | .error _ => o

def serve (o : CallOutputs) :
    List OutputRequest → List (Except HostError CallValue) × CallOutputs
  | [] => ([], o)
  | request :: rest =>
    let (answers, left) := (o.after request).serve rest
    (o.answer request :: answers, left)

end CallOutputs

end PluginHost
