import PluginHost.Data.Decode
import PluginHost.Named
import PluginHost.Uuid

/-!
# Connections

What a plugin sees of a connection: its identifier, its names, and flat maps of data and secrets.
The entries of a map stand in the order of their keys and no key occurs twice, so two maps are equal
exactly when they hold the same entries.
-/

namespace PluginHost

/-! ## Maps from text to text -/

structure TextMap where
  entries : Named String
  sorted : entries.Sorted
  deriving DecidableEq

namespace TextMap

theorem ext {m n : TextMap} (h : m.entries = n.entries) : m = n := by
  cases m
  cases n
  simp_all

def empty : TextMap := ⟨[], .nil⟩

instance : EmptyCollection TextMap := ⟨empty⟩

def insert (m : TextMap) (key value : String) : TextMap :=
  ⟨m.entries.insert key value, m.sorted.insert key value⟩

def get? (m : TextMap) (key : String) : Option String :=
  m.entries.lookup key

/-- The map of entries given in any order; of two with one key the later counts. -/
def ofList (entries : List (String × String)) : TextMap :=
  entries.foldl (fun m e => m.insert e.1 e.2) empty

end TextMap

/-! ## Connections -/

structure Connection where
  uuid : Uuid
  /-- The name shown to a person. -/
  id : String
  /-- The service whose plugin handles the connection. -/
  serviceType : String
  data : TextMap
  secrets : TextMap
  deriving DecidableEq

namespace Connection

/-- A connection without data, under a fresh identifier. -/
def fresh (uuid : Uuid) (id serviceType : String) : Connection :=
  ⟨uuid, id, serviceType, ∅, ∅⟩

def dataItem? (c : Connection) (key : String) : Option String :=
  c.data.get? key

def setDataItem (c : Connection) (key value : String) : Connection :=
  { c with data := c.data.insert key value }

end Connection

/-! ## In data files -/

def TextMap.toDatum (m : TextMap) : Datum :=
  .record (m.entries.map fun (key, value) => (key, .text value))

def TextMap.ofTree (d : Dialect) (t : Tree) : Decoded TextMap :=
  (Decode.entries d (Decode.text d) t).map TextMap.ofList

def Uuid.ofTree (d : Dialect) (t : Tree) : Decoded Uuid := do
  let text ← Decode.textAs d "a formatted UUID string" t
  match Uuid.ofText? text with
  | some uuid => return uuid
  | none => Decoded.complain (.stated "UUID parsing failed")

namespace Connection

def toDatum (c : Connection) : Datum :=
  .record [("uuid", .text c.uuid.text), ("id", .text c.id), ("service_type", .text c.serviceType),
    ("data", c.data.toDatum), ("secrets", c.secrets.toDatum)]

/-- A connection in a data file. The maps may be missing. -/
def ofTree (d : Dialect) (t : Tree) : Decoded Connection := do
  let text := Decode.text d
  let uuid := Uuid.ofTree d
  let map := TextMap.ofTree d
  let fields ← Decode.structureFields d "VpnConnection"
    [Decode.field "uuid" uuid, Decode.field "id" text, Decode.field "service_type" text,
      Decode.field "data" map, Decode.field "secrets" map] t
  return ⟨← fields.required "uuid" uuid, ← fields.required "id" text,
    ← fields.required "service_type" text, ← fields.withDefault "data" ∅ map,
    ← fields.withDefault "secrets" ∅ map⟩

end Connection

end PluginHost
