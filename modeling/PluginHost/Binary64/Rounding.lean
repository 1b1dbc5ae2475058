import PluginHost.Binary64.Basic

/-!
# Rounding to the nearest double

A quotient of naturals goes to the nearest double, halfway cases to the one whose last bit is
zero, and what lies beyond the greatest finite double to infinity.
-/

namespace PluginHost.Binary64

/-- The natural nearest to a quotient, a half going to the even neighbour. -/
def nearestEven (num den : Nat) : Nat :=
  let floor := num / den
  let twice := 2 * (num % den)
  if den < twice ∨ (twice = den ∧ floor % 2 = 1) then floor + 1 else floor

/-- The power of two that gives the quotient a significand of fifty-three bits, but none below
the finest spacing of doubles. -/
def unitScale (num den : Nat) : Int :=
  let estimate : Int := (Nat.log2 num : Int) - (Nat.log2 den : Int) - 52
  let floor := num * twoTo (-estimate).toNat / (den * twoTo estimate.toNat)
  max (-1074) (if floor < twoTo 52 then estimate - 1 else estimate)

/-- The double nearest to a quotient with a positive denominator. -/
def ofQuotient (negative : Bool) (num den : Nat) : Binary64 :=
  if num = 0 then ofMagnitude negative 0
  else
    let scale := unitScale num den
    let significand := nearestEven (num * twoTo (-scale).toNat) (den * twoTo scale.toNat)
    let bits := (scale + 1074).toNat * twoTo 52 + significand
    if infinityMagnitude ≤ bits then infinity negative else ofMagnitude negative bits

def ofNat (n : Nat) : Binary64 :=
  ofQuotient false n 1

def ofInt (n : Int) : Binary64 :=
  ofQuotient (n < 0) n.natAbs 1

/-- The double nearest to `digits` times ten to the power `exponent`. The sign is kept on zero. -/
def ofDecimal (negative : Bool) (digits : Nat) (exponent : Int) : Binary64 :=
  let highest : Int := exponent + (Nat.log2 digits : Int) / 3 + 1
  if digits = 0 then ofMagnitude negative 0
  else if 400 < exponent then infinity negative
  else if highest < -400 then ofMagnitude negative 0
  else ofQuotient negative (digits * tenTo exponent.toNat) (tenTo (-exponent).toNat)

/-- The product of two finite positive doubles, rounded. -/
def mulPositive (x y : Binary64) : Binary64 :=
  let (a, b) := x.magnitude.quotient
  let (c, d) := y.magnitude.quotient
  ofQuotient false (a * c) (b * d)

def divPositive (x y : Binary64) : Binary64 :=
  let (a, b) := x.magnitude.quotient
  let (c, d) := y.magnitude.quotient
  ofQuotient false (a * d) (b * c)

end PluginHost.Binary64
