/-!
# Integer literals and powers

A literal is an optional sign and one or more digits. It is read from left to right, so the first
digit that leaves the range and the first character that is no digit compete by position.
-/

namespace PluginHost.Number

/-- Why a text is no integer of the wanted range. -/
inductive IntegerFault where
  | empty
  | notADigit
  | tooLarge
  | tooSmall
  deriving DecidableEq, Repr

def IntegerFault.message : IntegerFault → String
  | .empty => "cannot parse integer from empty string"
  | .notADigit => "invalid digit found in string"
  | .tooLarge => "number too large to fit in target type"
  | .tooSmall => "number too small to fit in target type"

/-- The value of a digit in the given base, letters of either case standing for ten and above. -/
def digitIn? (base : Nat) (c : Char) : Option Nat :=
  let value :=
    if '0' ≤ c ∧ c ≤ '9' then some (c.toNat - '0'.toNat)
    else if 'a' ≤ c ∧ c ≤ 'z' then some (c.toNat - 'a'.toNat + 10)
    else if 'A' ≤ c ∧ c ≤ 'Z' then some (c.toNat - 'A'.toNat + 10)
    else none
  value.filter (· < base)

/-- Reads digits upwards from a value, as long as the value stays at or below the limit. -/
def readUp (base : Nat) (limit : Nat) : Nat → List Char → Except IntegerFault Nat
  | value, [] => .ok value
  | value, c :: cs =>
    match digitIn? base c with
    | none => .error .notADigit
    | some digit =>
      let next := value * base + digit
      if next ≤ limit then readUp base limit next cs else .error .tooLarge

def readMagnitude (base : Nat) (limit : Nat) (cs : List Char) : Except IntegerFault Nat :=
  if cs.isEmpty then .error .notADigit else readUp base limit 0 cs

/-- Reads a natural number at or below the limit. A plus sign may stand before it. -/
def readNat (base : Nat) (limit : Nat) : List Char → Except IntegerFault Nat
  | [] => .error .empty
  | '+' :: cs => readMagnitude base limit cs
  | cs => readMagnitude base limit cs

/-- The fault of a magnitude that belongs to a negative number. -/
def IntegerFault.below : IntegerFault → IntegerFault
  | .tooLarge => .tooSmall
  | fault => fault

/-- Reads an integer from `-lowest` to `highest`. -/
def readInt (base : Nat) (lowest highest : Nat) : List Char → Except IntegerFault Int
  | '-' :: cs =>
    ((readMagnitude base lowest cs).mapError IntegerFault.below).map fun n => -(n : Int)
  | cs => (readNat base highest cs).map Int.ofNat

def natDigits (n : Nat) : List Char :=
  Nat.toDigits 10 n

/-- The decimal literal of an integer, with a minus sign before a negative one. -/
def intDigits : Int → List Char
  | .ofNat n => natDigits n
  | .negSucc n => '-' :: natDigits (n + 1)

end PluginHost.Number

namespace PluginHost

/-! ## Powers -/

def twoTo (n : Nat) : Nat :=
  Nat.pow 2 n

def tenTo (n : Nat) : Nat :=
  Nat.pow 10 n

theorem twoTo_pos (n : Nat) : 0 < twoTo n :=
  Nat.pow_pos (by decide)

end PluginHost
