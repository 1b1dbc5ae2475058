import PluginHost.Binary64.Literal
import PluginHost.Binary64.Text
import PluginHost.Error
import PluginHost.Text.Pieces
import PluginHost.Text.Quoted
import PluginHost.Value.Basic

/-!
# Values in text

The plain text of a value is what a person reads in a message; the description also names the type.
In a literal of a string list the elements stand with commas between them, empty ones left out; a
string stands for itself, and bytes for the encoded text.
-/

namespace PluginHost.CallValue

def text : CallValue → String
  | .boolean b => if b then "true" else "false"
  | .int n => String.ofList (Number.intDigits n.toInt)
  | .uint n => String.ofList (Number.natDigits n.toNat)
  | .int64 n => String.ofList (Number.intDigits n.toInt)
  | .uint64 n => String.ofList (Number.natDigits n.toNat)
  | .double x => x.text Binary64.plainLayout
  | .string s => s
  | .stringList items => String.intercalate "," items
  | .bytes data => "<" ++ String.ofList (Number.natDigits data.length) ++ " bytes>"

/-- The value after the name of its type. -/
def description (v : CallValue) : String :=
  let body :=
    match v with
    | .double x => x.text Binary64.describedLayout
    | .string s => Text.quoted s
    | .stringList items => Text.bracketed (items.map Text.quoted)
    | .bytes data => Text.bracketed (data.map fun b => String.ofList (Number.natDigits b.toNat))
    | v => v.text
  v.tag.describedName ++ "(" ++ body ++ ")"

/-! ## Literals -/

def readBoolean : List Char → Option Bool
  | ['t', 'r', 'u', 'e'] => some true
  | ['f', 'a', 'l', 's', 'e'] => some false
  | _ => none

def readList (cs : List Char) : List String :=
  ((Text.pieces ',' cs).filter fun piece => !piece.isEmpty).map String.ofList

def badLiteral (tag : TypeTag) (literal reason : String) : HostError :=
  .parseError ("invalid " ++ tag.name ++ " value '" ++ literal ++ "': " ++ reason)

/-- Reads the literal of a value of the given type. -/
def parse (tag : TypeTag) (literal : String) : Except HostError CallValue :=
  let cs := literal.toList
  let integer {α : Type} (read : Except Number.IntegerFault α) (value : α → CallValue) :=
    (read.mapError fun fault => badLiteral tag literal fault.message).map value
  match tag with
  | .boolean =>
    match readBoolean cs with
    | some b => .ok (.boolean b)
    | none => .error (badLiteral tag literal "provided string was not `true` or `false`")
  | .int => integer (Number.readInt 10 (twoTo 31) (twoTo 31 - 1) cs) fun n => .int (Int32.ofInt n)
  | .uint => integer (Number.readNat 10 (twoTo 32 - 1) cs) fun n => .uint (UInt32.ofNat n)
  | .int64 =>
    integer (Number.readInt 10 (twoTo 63) (twoTo 63 - 1) cs) fun n => .int64 (Int64.ofInt n)
  | .uint64 => integer (Number.readNat 10 (twoTo 64 - 1) cs) fun n => .uint64 (UInt64.ofNat n)
  | .double =>
    match Binary64.readLiteral cs with
    | .ok x => .ok (.double x)
    | .error fault => .error (badLiteral tag literal fault.message)
  | .string => .ok (.string literal)
  | .stringList => .ok (.stringList (readList cs))
  | .bytes => .ok (.bytes literal.toUTF8.toList)

end PluginHost.CallValue
