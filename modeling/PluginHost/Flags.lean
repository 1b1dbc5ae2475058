import PluginHost.Number.Integer
import PluginHost.Text.Pieces
import PluginHost.Text.Quoted

/-!
# Sets of flags

A set of flags is a word. Its text names the known flags that are set and gives the other bits in
hexadecimal, so no bit is lost.
-/

namespace PluginHost

/-- The names of the known flags with their bits, in declaration order. -/
abbrev FlagNames := List (String × UInt32)

namespace FlagNames

def mask (names : FlagNames) : UInt32 :=
  names.foldl (fun bits flag => bits ||| flag.2) 0

/-- The known flags that are set and the bits they leave. A flag counts if all its bits are set
and one of them was not taken by an earlier flag. -/
def split (source : UInt32) : FlagNames → UInt32 → List String × UInt32
  | [], rest => ([], rest)
  | (name, bits) :: more, rest =>
    if source &&& bits = bits ∧ rest &&& bits ≠ 0 then
      let (found, left) := split source more (rest &&& ~~~bits)
      (name :: found, left)
    else split source more rest

def present (names : FlagNames) (bits : UInt32) : List String :=
  (split bits names bits).1

def hexText (bits : UInt32) : String :=
  "0x" ++ String.ofList (Text.hexDigits bits.toNat)

def text (names : FlagNames) (bits : UInt32) : String :=
  let (found, left) := split bits names bits
  String.intercalate " | " (found ++ if left = 0 then [] else [hexText left])

/-- The text of a set, or its word if the set is empty. -/
def description (names : FlagNames) (title : String) (bits : UInt32) : String :=
  title ++ "(" ++ (if bits = 0 then hexText 0 else text names bits) ++ ")"

/-- The bits of one flag: a hexadecimal word or a name. -/
def ofPiece? (names : FlagNames) : List Char → Option UInt32
  | '0' :: 'x' :: digits =>
    match Number.readNat 16 (twoTo 32 - 1) digits with
    | .ok n => some (UInt32.ofNat n)
    | .error _ => none
  | cs => names.lookup (String.ofList cs)

/-- Reads flags with bars between them; a blank text is the empty set. -/
def ofText? (names : FlagNames) (text : String) : Option UInt32 :=
  let cs := text.toList
  if (Text.trim cs).isEmpty then some 0
  else
    let word := (Text.pieces '|' cs).mapM fun piece => ofPiece? names (Text.trim piece)
    word.map fun words => words.foldl (· ||| ·) 0

end FlagNames

/-- The optional operations a plugin says it supports. -/
structure Capabilities where
  bits : UInt32
  deriving DecidableEq, Repr

namespace Capabilities

def none : Capabilities := ⟨0⟩
def importing : Capabilities := ⟨1⟩
def exporting : Capabilities := ⟨2⟩
def ipv6 : Capabilities := ⟨4⟩

def known : FlagNames :=
  [("NONE", none.bits), ("IMPORT", importing.bits), ("EXPORT", exporting.bits), ("IPV6", ipv6.bits)]

def contains (c other : Capabilities) : Bool :=
  c.bits &&& other.bits == other.bits

/-- The capabilities with the known bits only. -/
def truncate (c : Capabilities) : Capabilities :=
  ⟨c.bits &&& known.mask⟩

/-- The capabilities of a word that has known bits only. -/
def ofBits? (bits : UInt32) : Option Capabilities :=
  if bits &&& ~~~known.mask = 0 then some ⟨bits⟩ else Option.none

def isAll (c : Capabilities) : Bool :=
  c.contains ⟨known.mask⟩

def names (c : Capabilities) : List String :=
  known.present c.bits

def description (c : Capabilities) : String :=
  known.description "EditorCapabilities" c.bits

end Capabilities

/-- The flags a plugin gives to a service type. -/
structure ServiceFlags where
  bits : UInt32
  deriving DecidableEq, Repr

namespace ServiceFlags

def canAdd : ServiceFlags := ⟨1⟩

def known : FlagNames :=
  [("NONE", 0), ("CAN_ADD", canAdd.bits)]

def contains (f other : ServiceFlags) : Bool :=
  f.bits &&& other.bits == other.bits

def text (f : ServiceFlags) : String :=
  known.text f.bits

def ofText? (text : String) : Option ServiceFlags :=
  (known.ofText? text).map ServiceFlags.mk

def description (f : ServiceFlags) : String :=
  known.description "ServiceFlags" f.bits

end ServiceFlags

end PluginHost
