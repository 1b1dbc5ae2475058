import PluginHost.Binary64.Rounding
import PluginHost.Number.Integer

/-!
# Literals of a double

An optional sign, then a name of infinity or of what is no number in any case, or digits with an
optional point and an optional exponent. A literal is read to the nearest double.
-/

namespace PluginHost.Binary64

/-- Why a text is no double. -/
inductive LiteralFault where
  | empty
  | malformed
  deriving DecidableEq, Repr

def LiteralFault.message : LiteralFault → String
  | .empty => "cannot parse float from empty string"
  | .malformed => "invalid float literal"

/-- The value of a run of decimal digits, continuing from a value. -/
def digitsValue (value : Nat) (digits : List Char) : Nat :=
  digits.foldl (fun n c => n * 10 + (c.toNat - '0'.toNat)) value

def spanDigits (cs : List Char) : List Char × List Char :=
  cs.span Char.isDigit

/-- The exponent after the mark `e`: an optional sign and digits up to the end of the text. -/
def readExponent : List Char → Option Int
  | '-' :: cs => (unsigned cs).map fun n => -(n : Int)
  | '+' :: cs => (unsigned cs).map Int.ofNat
  | cs => (unsigned cs).map Int.ofNat
where
  unsigned (cs : List Char) : Option Nat :=
    if cs.isEmpty || !cs.all Char.isDigit then none else some (digitsValue 0 cs)

/-- Digits, an optional point with digits after it, and an optional exponent; at least one digit
stands before the exponent. -/
def readDecimal (negative : Bool) (cs : List Char) : Option Binary64 :=
  let (whole, afterWhole) := spanDigits cs
  let (fraction, rest) :=
    match afterWhole with
    | '.' :: more => spanDigits more
    | _ => ([], afterWhole)
  let digits := digitsValue (digitsValue 0 whole) fraction
  let value (exponent : Int) := ofDecimal negative digits (exponent - fraction.length)
  if whole.isEmpty && fraction.isEmpty then none
  else
    match rest with
    | [] => some (value 0)
    | mark :: more =>
      if mark = 'e' ∨ mark = 'E' then (readExponent more).map value else none

def readUnsigned (negative : Bool) (cs : List Char) : Option Binary64 :=
  let lower := String.ofList (cs.map Char.toLower)
  if lower = "inf" ∨ lower = "infinity" then some (infinity negative)
  else if lower = "nan" then some (if negative then nan.negate else nan)
  else readDecimal negative cs

def readLiteral : List Char → Except LiteralFault Binary64
  | [] => .error .empty
  | '-' :: cs => (readUnsigned true cs).elim (.error .malformed) .ok
  | '+' :: cs => (readUnsigned false cs).elim (.error .malformed) .ok
  | cs => (readUnsigned false cs).elim (.error .malformed) .ok

end PluginHost.Binary64
