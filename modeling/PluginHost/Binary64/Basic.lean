import PluginHost.Number.Integer

/-!
# Double-precision numbers

A double is its sixty-four bits: a sign, eleven bits of exponent and fifty-two of fraction. The
arithmetic below is exact on naturals, so nothing here depends on a floating-point unit.
-/

namespace PluginHost

/-- A double-precision number, given by its bits. -/
structure Binary64 where
  bits : UInt64
  deriving DecidableEq, Repr

namespace Binary64

def isNegative (x : Binary64) : Bool :=
  x.bits.toNat / twoTo 63 == 1

def exponentField (x : Binary64) : Nat :=
  x.bits.toNat / twoTo 52 % twoTo 11

def fractionField (x : Binary64) : Nat :=
  x.bits.toNat % twoTo 52

def isNaN (x : Binary64) : Bool :=
  x.exponentField == 2047 && x.fractionField != 0

def isInfinite (x : Binary64) : Bool :=
  x.exponentField == 2047 && x.fractionField == 0

def isFinite (x : Binary64) : Bool :=
  x.exponentField != 2047

def isZero (x : Binary64) : Bool :=
  x.exponentField == 0 && x.fractionField == 0

/-- The number with the given sign whose other bits are `magnitude`. -/
def ofMagnitude (negative : Bool) (magnitude : Nat) : Binary64 :=
  ⟨UInt64.ofNat (magnitude + if negative then twoTo 63 else 0)⟩

def zero : Binary64 := ofMagnitude false 0

def infinityMagnitude : Nat := 2047 * twoTo 52

def infinity (negative : Bool) : Binary64 := ofMagnitude negative infinityMagnitude

/-- The quiet number that stands for no value. -/
def nan : Binary64 := ofMagnitude false (infinityMagnitude + twoTo 51)

def negate (x : Binary64) : Binary64 :=
  ofMagnitude (!x.isNegative) (x.bits.toNat % twoTo 63)

/-- Numerical equality: the zeros are equal to each other, and what is no number equals nothing. -/
def equals (x y : Binary64) : Bool :=
  !x.isNaN && !y.isNaN && (x.bits == y.bits || (x.isZero && y.isZero))

/-- A finite magnitude is `significand` times two to the power `scale`. -/
structure Magnitude where
  significand : Nat
  scale : Int
  /-- The gap to the next smaller magnitude is half the gap to the next greater one. -/
  narrowBelow : Bool

def magnitude (x : Binary64) : Magnitude :=
  if x.exponentField = 0 then ⟨x.fractionField, -1074, false⟩
  else ⟨twoTo 52 + x.fractionField, (x.exponentField : Int) - 1075,
    x.fractionField == 0 && 1 < x.exponentField⟩

def Magnitude.quotient (m : Magnitude) : Nat × Nat :=
  (m.significand * twoTo m.scale.toNat, twoTo (-m.scale).toNat)

end Binary64

end PluginHost
