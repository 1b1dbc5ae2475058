import PluginHost.Binary64.Basic

/-!
# The fewest digits that read back

Of the decimals that round to a given double, the one with the fewest digits is chosen, and of
several such the nearest; which of two equally near ones is for the reader of the text to say.
The decimals that round to it are those between the halfway points to its neighbours, the points
themselves counting exactly when the significand is even. All comparisons are exact.
-/

namespace PluginHost.Binary64

/-- The decimal `digits` times ten to the power `exponent`. -/
structure Decimal where
  digits : Nat
  exponent : Int
  deriving DecidableEq, Repr

/-- Where a magnitude goes that is halfway between two decimals. -/
inductive Halfway where
  | toEven
  | up
  deriving DecidableEq, Repr

def Halfway.choose (low : Nat) : Halfway → Nat
  | .toEven => if low % 2 = 0 then low else low + 1
  | .up => low + 1

/-- Compares `a` times ten to the power `p` with `b` times two to the power `q`. -/
def compareDecimal (a : Nat) (p : Int) (b : Nat) (q : Int) : Ordering :=
  compare (a * tenTo p.toNat * twoTo (-q).toNat) (b * twoTo q.toNat * tenTo (-p).toNat)

/-- Whether a decimal lies between the halfway points to the neighbours of a magnitude. Both
points are multiples of a quarter of the magnitude's spacing. -/
def Magnitude.readsBack (m : Magnitude) (d : Decimal) : Bool :=
  let quarter := m.scale - 2
  let low := 4 * m.significand - if m.narrowBelow then 1 else 2
  let high := 4 * m.significand + 2
  let even := m.significand % 2 == 0
  let above := compareDecimal d.digits d.exponent low quarter
  let below := compareDecimal d.digits d.exponent high quarter
  (above == .gt || (even && above == .eq)) && (below == .lt || (even && below == .eq))

/-- The greatest `digits` for which the decimal does not exceed the magnitude. -/
def Magnitude.gridFloor (m : Magnitude) (exponent : Int) : Nat :=
  m.significand * twoTo m.scale.toNat * tenTo (-exponent).toNat /
    (twoTo (-m.scale).toNat * tenTo exponent.toNat)

/-- Of the two decimals around a magnitude on a grid, the one that reads back and, if both do,
the nearer. -/
def Magnitude.onGrid? (m : Magnitude) (halfway : Halfway) (exponent : Int) : Option Decimal :=
  let low : Decimal := ⟨m.gridFloor exponent, exponent⟩
  let high : Decimal := ⟨low.digits + 1, exponent⟩
  match m.readsBack low && low.digits != 0, m.readsBack high with
  | true, true =>
    match compareDecimal (low.digits + high.digits) exponent (2 * m.significand) m.scale with
    | .gt => some low
    | .lt => some high
    | .eq => some ⟨halfway.choose low.digits, exponent⟩
  | true, false => some low
  | false, true => some high
  | false, false => none

/-- The number of decimal digits before the point of a magnitude; zero or less below one. -/
def Magnitude.decimalWidth (m : Magnitude) : Int :=
  let bits : Int := (Nat.log2 m.significand : Int) + m.scale
  let estimate : Int := bits * 30103 / 100000
  if compareDecimal 1 estimate m.significand m.scale == .gt then estimate
  else if compareDecimal 1 (estimate + 1) m.significand m.scale == .gt then estimate + 1
  else estimate + 2

/-- The first grid, from the coarsest of a list, that has a decimal which reads back. -/
def Magnitude.firstOnGrid (m : Magnitude) (halfway : Halfway) (width : Int) :
    List Nat → Decimal
  | [] => ⟨m.gridFloor (width - 17), width - 17⟩
  | count :: more =>
    match m.onGrid? halfway (width - count) with
    | some d => d
    | none => m.firstOnGrid halfway width more

/-- The decimal without zeros at the end of its digits, of which it has `count` at most. -/
def Decimal.strip (d : Decimal) : Nat → Decimal
  | 0 => d
  | count + 1 =>
    if d.digits % 10 = 0 ∧ d.digits ≠ 0 then
      Decimal.strip ⟨d.digits / 10, d.exponent + 1⟩ count
    else d

/-- The shortest decimal that reads back to a finite number's magnitude; zero for zero. -/
def shortest (x : Binary64) (halfway : Halfway) : Decimal :=
  let m := x.magnitude
  if m.significand = 0 then ⟨0, 0⟩
  else (m.firstOnGrid halfway m.decimalWidth (List.range' 1 17)).strip 17

end PluginHost.Binary64
