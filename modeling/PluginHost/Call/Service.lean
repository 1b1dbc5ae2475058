import PluginHost.Call.Pending
import PluginHost.Data.Decode

/-!
# Well-known calls

Calls that many plugins know by convention: what a service type is called and whether connections
of it can be added, and the ways of adding one.
-/

namespace PluginHost

/-- What a plugin says about a service type. -/
structure ServiceInfo where
  shortName : String
  prettyName : String
  description : String
  flags : ServiceFlags
  deriving DecidableEq

structure AddDetail where
  prettyName : String
  description : String
  /-- The data key that holds the detail in such a connection. -/
  key : String
  flags : UInt32
  deriving DecidableEq

/-- A call with its agreed signature. -/
structure WellKnownCall where
  name : String
  inputs : List TypeTag
  outputs : List TypeTag
  deriving DecidableEq, Repr

namespace WellKnownCall

def serviceInfo : WellKnownCall :=
  ⟨"get-service-info", [.string], [.string, .string, .string, .uint]⟩

def addDetails : WellKnownCall :=
  ⟨"get-service-add-details", [.string], [.stringList]⟩

/-- From a service type and a detail to the detail's name, description, data key and flags. -/
def addDetail : WellKnownCall :=
  ⟨"get-service-add-detail", [.string, .string], [.string, .string, .string, .uint]⟩

end WellKnownCall

def serviceInfo (plugin : Plugin) (history : History) (serviceType : String) :
    Except HostError ServiceInfo × History :=
  let (result, after) := callTyped plugin history WellKnownCall.serviceInfo.name
    [.string serviceType] [.string, .string, .string, .uint]
  (result.map fun (shortName, prettyName, description, flags, _) =>
    ⟨shortName, prettyName, description, ⟨flags⟩⟩, after)

def serviceAddDetails (plugin : Plugin) (history : History) (serviceType : String) :
    Except HostError (List String) × History :=
  let (result, after) := callTyped plugin history WellKnownCall.addDetails.name
    [.string serviceType] [.stringList]
  (result.map fun (details, _) => details, after)

def serviceAddDetail (plugin : Plugin) (history : History) (serviceType detail : String) :
    Except HostError AddDetail × History :=
  let (result, after) := callTyped plugin history WellKnownCall.addDetail.name
    [.string serviceType, .string detail] [.string, .string, .string, .uint]
  (result.map fun (prettyName, description, key, flags, _) =>
    ⟨prettyName, description, key, flags⟩, after)

/-! ## In data files -/

def ServiceFlags.toDatum (f : ServiceFlags) : Datum :=
  .text f.text

def ServiceFlags.ofTree (d : Dialect) (t : Tree) : Decoded ServiceFlags := do
  let text ← Decode.textAs d "a string value of `|` separated flags" t
  match ServiceFlags.ofText? text with
  | some flags => return flags
  | none => Decoded.complain (.stated "unrecognized flags")

namespace ServiceInfo

def toDatum (info : ServiceInfo) : Datum :=
  .record [("short_name", .text info.shortName), ("pretty_name", .text info.prettyName),
    ("description", .text info.description), ("flags", info.flags.toDatum)]

def ofTree (d : Dialect) (t : Tree) : Decoded ServiceInfo := do
  let text := Decode.text d
  let flags := ServiceFlags.ofTree d
  let fields ← Decode.structureFields d "ServiceInfo"
    [Decode.field "short_name" text, Decode.field "pretty_name" text,
      Decode.field "description" text, Decode.field "flags" flags] t
  return ⟨← fields.required "short_name" text, ← fields.required "pretty_name" text,
    ← fields.required "description" text, ← fields.required "flags" flags⟩

end ServiceInfo

namespace AddDetail

def toDatum (detail : AddDetail) : Datum :=
  .record [("pretty_name", .text detail.prettyName), ("description", .text detail.description),
    ("add_detail_key", .text detail.key), ("flags", .integer detail.flags.toNat)]

def ofTree (d : Dialect) (t : Tree) : Decoded AddDetail := do
  let text := Decode.text d
  let word := Decode.integer d "u32" 0 (twoTo 32 - 1)
  let fields ← Decode.structureFields d "AddDetail"
    [Decode.field "pretty_name" text, Decode.field "description" text,
      Decode.field "add_detail_key" text, Decode.field "flags" word] t
  return ⟨← fields.required "pretty_name" text, ← fields.required "description" text,
    ← fields.required "add_detail_key" text,
    UInt32.ofNat (← fields.required "flags" word).toNat⟩

end AddDetail

end PluginHost
