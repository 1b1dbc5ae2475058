import PluginHost.Data.Datum
import PluginHost.Text.Quoted
import PluginHost.Value.Text

/-!
# Portable values

A form of values in which nothing is lost on the way through readers that know only doubles: whole
numbers of 64 bits and doubles are texts, and bytes are pairs of hexadecimal digits.
-/

namespace PluginHost

/-- The type of a name that a person reads. -/
def TypeTag.ofName? (name : String) : Option TypeTag :=
  all.find? fun tag => tag.name == name

def byteDigits (b : UInt8) : List Char :=
  let digits := Text.hexDigits b.toNat
  List.replicate (2 - digits.length) '0' ++ digits

/-- The bytes of pairs of hexadecimal digits. -/
def bytesOfDigits? : List Char → Option (List UInt8)
  | [] => some []
  | a :: b :: rest => do
    let high ← Number.digitIn? 16 a
    let low ← Number.digitIn? 16 b
    return UInt8.ofNat (16 * high + low) :: (← bytesOfDigits? rest)
  | [_] => none

namespace CallValue

def portableContent : CallValue → Datum
  | .boolean b => .bool b
  | .int n => .integer n.toInt
  | .uint n => .integer n.toNat
  | .stringList items => .list (items.map .text)
  | .bytes data => .text (String.ofList (data.flatMap byteDigits))
  | v => .text v.text

def toPortable (v : CallValue) : Datum :=
  .record [("type", .text v.tag.name), ("value", v.portableContent)]

def ofPortableContent? (tag : TypeTag) (content : Datum) : Option CallValue :=
  match tag with
  | .boolean => content.bool?.map .boolean
  | .int => content.int?.map fun n => .int (Int32.ofInt n)
  | .uint => content.nat?.map fun n => .uint (UInt32.ofNat n)
  | .int64 | .uint64 | .double => content.text?.bind fun s => (parse tag s).toOption
  | .string => content.text?.map .string
  | .stringList => (content.itemsAs? Datum.text?).map .stringList
  | .bytes => content.text?.bind fun s => (bytesOfDigits? s.toList).map .bytes

def ofPortable? (d : Datum) : Option CallValue := do
  ofPortableContent? (← TypeTag.ofName? (← d.get? "type" Datum.text?)) (← d.member? "value")

end CallValue

end PluginHost
