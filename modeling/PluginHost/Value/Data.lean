import PluginHost.Data.Decode
import PluginHost.Value.Basic

/-!
# Values in data files

A value is a record of its type and its content, in either order. A content that stands before the
type is kept until the type is known.
-/

namespace PluginHost

def TypeTag.recordNames : List String :=
  TypeTag.all.map TypeTag.recordName

def TypeTag.ofTree (d : Dialect) (t : Tree) : Decoded TypeTag :=
  Decode.variant d TypeTag.ofRecordName? TypeTag.recordNames t

namespace CallValue

def content : CallValue → Datum
  | .boolean b => .bool b
  | .int n => .integer n.toInt
  | .uint n => .integer n.toNat
  | .int64 n => .integer n.toInt
  | .uint64 n => .integer n.toNat
  | .double x => .float x
  | .string s => .text s
  | .stringList items => .list (items.map .text)
  | .bytes data => .list (data.map fun b => .integer b.toNat)

def toDatum (v : CallValue) : Datum :=
  .record [("type", .text v.tag.recordName), ("value", v.content)]

/-- The content of a value of the given type. -/
def ofContent (d : Dialect) (tag : TypeTag) (t : Tree) : Decoded CallValue :=
  match tag with
  | .boolean => (Decode.bool d t).map .boolean
  | .int =>
    (Decode.integer d "i32" (-(twoTo 31 : Int)) (twoTo 31 - 1) t).map fun n => .int (Int32.ofInt n)
  | .uint => (Decode.integer d "u32" 0 (twoTo 32 - 1) t).map fun n => .uint (UInt32.ofNat n.toNat)
  | .int64 =>
    (Decode.integer d "i64" (-(twoTo 63 : Int)) (twoTo 63 - 1) t).map fun n =>
      .int64 (Int64.ofInt n)
  | .uint64 =>
    (Decode.integer d "u64" 0 (twoTo 64 - 1) t).map fun n => .uint64 (UInt64.ofNat n.toNat)
  | .double => (Decode.double d t).map .double
  | .string => (Decode.text d t).map .string
  | .stringList => (Decode.list d (Decode.text d) t).map .stringList
  | .bytes =>
    let byte (t : Tree) := (Decode.integer d "u8" 0 255 t).map fun n => UInt8.ofNat n.toNat
    (Decode.list d byte t).map .bytes

/-- What is known of a value while the members of its record are read. -/
inductive Partial where
  | nothing
  | typed (tag : TypeTag)
  /-- The content stood first and waits for its type. -/
  | kept (content : Tree)
  | complete (value : CallValue)

/-- The depth to which a content that waits for its type may be nested. -/
def keptDepth : Nat := 126

/-- Reads one member of a value's record. -/
def Partial.read (d : Dialect) (p : Partial) (name : String) (t : Tree) : Decoded Partial := do
  if name = "type" then
    match p with
    | .nothing => return .typed (← TypeTag.ofTree d t)
    | .kept content =>
      let tag ← TypeTag.ofTree d t
      return .complete (← ofContent d tag content)
    | _ => Decoded.complain (.duplicateField "type")
  else if name = "value" then
    match p with
    | .nothing =>
      Decoded.ofRead (t.readWhole keptDepth)
      return .kept t
    | .typed tag => return .complete (← ofContent d tag t)
    | _ => Decoded.complain (.duplicateField "value")
  else
    Decoded.ofRead t.skip
    return p

def Partial.readAll (d : Dialect) : Partial → List (MemberName × Tree) → Decoded Partial
  | p, [] => .ok p
  | _, (.broken reading _, _) :: _ => .error (.unreadable reading)
  | p, (.text name, t) :: rest => do
    let next ← p.read d name t
    next.readAll d rest

def expectation : String := "adjacently tagged enum CallValue"

/-- A value in a data file: a record, or a list of type and content. -/
def ofTree (d : Dialect) : Tree → Decoded CallValue
  | .record ms ending => do
    let p ← Partial.nothing.readAll d ms
    Decoded.ofRead (ReadFault.raise ending)
    match p with
    | .nothing => Decoded.complain (.missingField "type")
    | .kept _ => Decoded.complain (.missingField "type")
    | .typed _ => Decoded.complain (.missingField "value")
    | .complete v => return v
  | .list [] ending => do
    Decoded.ofRead (ReadFault.raise ending)
    Decoded.complain (.invalidLength 0 expectation)
  | .list (first :: more) ending => do
    let tag ← Decode.identifier d TypeTag.ofRecordName? TypeTag.recordNames first
    match more with
    | [] =>
      Decoded.ofRead (ReadFault.raise ending)
      Decoded.complain (.invalidLength 1 expectation)
    | second :: surplus =>
      let v ← ofContent d tag second
      if surplus.isEmpty then
        Decoded.ofRead (ReadFault.raise ending)
        return v
      else .error (.unreadable .malformed)
  | t => Decoded.mismatch d expectation t

end CallValue

end PluginHost
