import PluginHost.Binary64.Basic
import PluginHost.Value.Tag

/-!
# Values that cross the plugin boundary

A value carries its type; nothing is converted from one type to another.
-/

namespace PluginHost

/-- A value together with its type. -/
inductive CallValue where
  | boolean (value : Bool)
  | int (value : Int32)
  | uint (value : UInt32)
  | int64 (value : Int64)
  | uint64 (value : UInt64)
  | double (value : Binary64)
  | string (value : String)
  | stringList (value : List String)
  | bytes (value : List UInt8)
  deriving DecidableEq, Repr, Inhabited

namespace CallValue

/-- The value with which an output slot of the type starts. -/
def empty : TypeTag → CallValue
  | .boolean => .boolean false
  | .int => .int 0
  | .uint => .uint 0
  | .int64 => .int64 0
  | .uint64 => .uint64 0
  | .double => .double Binary64.zero
  | .string => .string ""
  | .stringList => .stringList []
  | .bytes => .bytes []

def tag : CallValue → TypeTag
  | .boolean _ => .boolean
  | .int _ => .int
  | .uint _ => .uint
  | .int64 _ => .int64
  | .uint64 _ => .uint64
  | .double _ => .double
  | .string _ => .string
  | .stringList _ => .stringList
  | .bytes _ => .bytes

@[simp] theorem tag_empty (t : TypeTag) : (empty t).tag = t := by
  cases t <;> rfl

def holds (v : CallValue) (t : TypeTag) : Bool :=
  v.tag == t

def text? : CallValue → Option String
  | .string s => some s
  | _ => none

/-- Equality of values, doubles being compared as numbers. -/
def equals : CallValue → CallValue → Bool
  | .double x, .double y => x.equals y
  | v, w => v == w

end CallValue

/-- The type whose elements are the values of a tag. -/
def TypeTag.Carrier : TypeTag → Type
  | .boolean => Bool
  | .int => Int32
  | .uint => UInt32
  | .int64 => Int64
  | .uint64 => UInt64
  | .double => Binary64
  | .string => String
  | .stringList => List String
  | .bytes => List UInt8

namespace CallValue

/-- The value that an element of a tag's type stands for. -/
def ofCarrier : (t : TypeTag) → t.Carrier → CallValue
  | .boolean => .boolean
  | .int => .int
  | .uint => .uint
  | .int64 => .int64
  | .uint64 => .uint64
  | .double => .double
  | .string => .string
  | .stringList => .stringList
  | .bytes => .bytes

/-- The element of a tag's type, if the value is of that type. -/
def toCarrier? : (t : TypeTag) → CallValue → Option t.Carrier
  | .boolean, .boolean v => some v
  | .int, .int v => some v
  | .uint, .uint v => some v
  | .int64, .int64 v => some v
  | .uint64, .uint64 v => some v
  | .double, .double v => some v
  | .string, .string v => some v
  | .stringList, .stringList v => some v
  | .bytes, .bytes v => some v
  | _, _ => none

@[simp] theorem tag_ofCarrier (t : TypeTag) (x : t.Carrier) : (ofCarrier t x).tag = t := by
  cases t <;> rfl

@[simp] theorem toCarrier?_ofCarrier (t : TypeTag) (x : t.Carrier) :
    toCarrier? t (ofCarrier t x) = some x := by
  cases t <;> rfl

end CallValue

end PluginHost
