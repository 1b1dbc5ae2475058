import PluginHost.Binary64.Literal
import PluginHost.Data.Tree

/-!
# Numbers of a JSON text

An integer that fits sixty-four bits is exact. Any other number is a double: as many digits as fit
sixty-four bits, scaled by a power of ten, so the last bit may differ from the nearest double.
-/

namespace PluginHost.Json

structure NumberText where
  negative : Bool
  whole : List Char
  /-- The digits after a point; nothing if there is no point. -/
  fraction : Option (List Char)
  /-- Whether the exponent is negative, and its digits; nothing if there is no exponent. -/
  exponent : Option (Bool × List Char)
  deriving DecidableEq, Repr

/-- The fault of a text that goes on like this where something else was expected. -/
def faultAt : List Char → ReadFault
  | [] => .truncated
  | _ :: _ => .malformed

def scanDigits (cs : List Char) : Except ReadFault (List Char × List Char) :=
  match Binary64.spanDigits cs with
  | ([], rest) => .error (faultAt rest)
  | (digits, rest) => .ok (digits, rest)

/-- The digits before a point: zero, or digits that do not begin with zero. -/
def scanWhole (cs : List Char) : Except ReadFault (List Char × List Char) := do
  let (digits, rest) ← scanDigits cs
  match digits with
  | '0' :: _ :: _ => .error .malformed
  | _ => return (digits, rest)

def scanFraction : List Char → Except ReadFault (Option (List Char) × List Char)
  | '.' :: cs => do
    let (digits, rest) ← scanDigits cs
    return (some digits, rest)
  | cs => return (none, cs)

def scanExponent : List Char → Except ReadFault (Option (Bool × List Char) × List Char)
  | mark :: cs =>
    if mark = 'e' ∨ mark = 'E' then do
      let (negative, digits) :=
        match cs with
        | '-' :: more => (true, more)
        | '+' :: more => (false, more)
        | _ => (false, cs)
      let (digits, rest) ← scanDigits digits
      return (some (negative, digits), rest)
    else return (none, mark :: cs)
  | [] => return (none, [])

def scanUnsigned (negative : Bool) (cs : List Char) :
    Except ReadFault (NumberText × List Char) := do
  let (whole, afterWhole) ← scanWhole cs
  let (fraction, afterFraction) ← scanFraction afterWhole
  let (exponent, rest) ← scanExponent afterFraction
  return (⟨negative, whole, fraction, exponent⟩, rest)

def scanNumber : List Char → Except ReadFault (NumberText × List Char)
  | '-' :: cs => scanUnsigned true cs
  | cs => scanUnsigned false cs

def significandLimit : Nat := twoTo 64 - 1

/-- A significand and the power of ten that scales it. -/
structure Scaled where
  significand : Nat
  exponent : Int
  deriving DecidableEq, Repr

/-- Takes digits before the point as long as they fit; each further one scales by ten. -/
def takeWhole : Nat → List Char → Scaled
  | n, [] => ⟨n, 0⟩
  | n, c :: cs =>
    let next := Binary64.digitsValue n [c]
    if next ≤ significandLimit then takeWhole next cs else ⟨n, (cs.length : Int) + 1⟩

/-- Takes digits after the point as long as they fit; the others are left out. -/
def takeFraction : Scaled → List Char → Scaled
  | s, [] => s
  | s, c :: cs =>
    let next := Binary64.digitsValue s.significand [c]
    if next ≤ significandLimit then takeFraction ⟨next, s.exponent - 1⟩ cs else s

/-- Divides by the greatest power of ten among doubles until the exponent is in reach. -/
def scaleDown (x : Binary64) (exponent : Int) : Nat → Binary64
  | 0 => Binary64.zero
  | steps + 1 =>
    if -308 ≤ exponent then x.divPositive (Binary64.ofNat (tenTo exponent.natAbs))
    else if x.isZero then x
    else scaleDown (x.divPositive (Binary64.ofNat (tenTo 308))) (exponent + 308) steps

/-- The magnitude of a scaled significand; nothing if it is beyond the greatest double. -/
def Scaled.magnitude? (s : Scaled) : Option Binary64 :=
  let x := Binary64.ofNat s.significand
  if s.significand = 0 then some x
  else if s.exponent < 0 then some (scaleDown x s.exponent 5)
  else if 308 < s.exponent then none
  else
    let scaled := x.mulPositive (Binary64.ofNat (tenTo s.exponent.toNat))
    if scaled.isInfinite then none else some scaled

/-- The exponent as written, cut at a million; it decides no other number then. -/
def exponentValue : Option (Bool × List Char) → Int
  | none => 0
  | some (negative, digits) =>
    let size : Int := min (Binary64.digitsValue 0 digits) 1000000
    if negative then -size else size

def NumberText.double? (n : NumberText) : Option Binary64 :=
  let whole := takeWhole 0 n.whole
  let scaled := takeFraction whole (n.fraction.getD [])
  let exponent := scaled.exponent + exponentValue n.exponent
  (Scaled.magnitude? ⟨scaled.significand, exponent⟩).map fun x =>
    if n.negative then x.negate else x

def NumberText.datum? (n : NumberText) : Option Datum :=
  let value := Binary64.digitsValue 0 n.whole
  let isInteger := n.fraction.isNone && n.exponent.isNone
  if isInteger && !n.negative && value ≤ significandLimit then some (.integer value)
  else if isInteger && n.negative && value ≠ 0 && value ≤ twoTo 63 then some (.integer (-value))
  else n.double?.map .float

end PluginHost.Json
