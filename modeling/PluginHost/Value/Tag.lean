/-!
# Types of the values that cross the plugin boundary
-/

namespace PluginHost

inductive TypeTag where
  | boolean
  | int
  | uint
  | int64
  | uint64
  | double
  | string
  | stringList
  | bytes
  deriving DecidableEq, Repr, Inhabited

namespace TypeTag

/-- Every tag, in declaration order. -/
def all : List TypeTag :=
  [.boolean, .int, .uint, .int64, .uint64, .double, .string, .stringList, .bytes]

/-- The name a person reads. -/
def name : TypeTag → String
  | .boolean => "boolean"
  | .int => "int"
  | .uint => "uint"
  | .int64 => "int64"
  | .uint64 => "uint64"
  | .double => "double"
  | .string => "string"
  | .stringList => "string-list"
  | .bytes => "bytes"

/-- The name a data file holds. -/
def recordName : TypeTag → String
  | .uint => "u-int"
  | .uint64 => "u-int64"
  | tag => tag.name

/-- The name in the description of a signature. -/
def describedName : TypeTag → String
  | .boolean => "Boolean"
  | .int => "Int"
  | .uint => "UInt"
  | .int64 => "Int64"
  | .uint64 => "UInt64"
  | .double => "Double"
  | .string => "String"
  | .stringList => "StringList"
  | .bytes => "Bytes"

def ofRecordName? (name : String) : Option TypeTag :=
  all.find? fun tag => tag.recordName == name

end TypeTag

end PluginHost
