import PluginHost.Binary64.Shortest
import PluginHost.Number.Integer

/-!
# Layouts of a double

A layout says which digits are chosen where two choices are equally near, and how they are
written: which decimal exponents stand positionally, whether a whole number keeps a point and a
zero, and how what is not finite is called.
-/

namespace PluginHost.Binary64

/-- The decisions of one written form. -/
structure Layout where
  /-- The exponents of the first digit that are written positionally; all of them for none. -/
  positional : Option (Int × Int)
  pointZero : Bool
  plusSign : Bool
  halfway : Halfway
  deriving DecidableEq, Repr

/-- The plain form: always positional, and no point in a whole number. -/
def plainLayout : Layout := ⟨none, false, false, .up⟩

/-- Positional like the plain form, but always with a point. -/
def pointedLayout : Layout := ⟨none, true, false, .up⟩

/-- The form of data files: positional from a hundred-thousandth to below ten to the sixteenth. -/
def dataLayout : Layout := ⟨some (-5, 15), true, true, .toEven⟩

/-- The form inside described values: positional from a ten-thousandth to below ten to the
sixteenth. -/
def describedLayout : Layout := ⟨some (-4, 15), true, false, .up⟩

/-- The digits before and after the point for a number whose first digit has the given exponent. -/
def Decimal.positionalText (d : Decimal) (pointZero : Bool) : List Char :=
  let digits := Number.natDigits d.digits
  if 0 ≤ d.exponent then
    digits ++ List.replicate d.exponent.toNat '0' ++ if pointZero then ['.', '0'] else []
  else
    let places := (-d.exponent).toNat
    let padded := List.replicate (places + 1 - digits.length) '0' ++ digits
    padded.take (padded.length - places) ++ '.' :: padded.drop (padded.length - places)

/-- One digit, the others after a point, and the exponent of the first digit. -/
def Decimal.scientificText (d : Decimal) (plusSign : Bool) : List Char :=
  let digits := Number.natDigits d.digits
  let exponent := d.exponent + (digits.length : Int) - 1
  let sign := if exponent < 0 then ['-'] else if plusSign then ['+'] else []
  let fraction := if digits.length ≤ 1 then [] else '.' :: digits.drop 1
  digits.take 1 ++ fraction ++ 'e' :: sign ++ Number.natDigits exponent.natAbs

def Decimal.leadingExponent (d : Decimal) : Int :=
  d.exponent + ((Number.natDigits d.digits).length : Int) - 1

def Layout.write (layout : Layout) (d : Decimal) : List Char :=
  match layout.positional with
  | none => d.positionalText layout.pointZero
  | some (least, greatest) =>
    if least ≤ d.leadingExponent ∧ d.leadingExponent ≤ greatest then
      d.positionalText layout.pointZero
    else d.scientificText layout.plusSign

/-- A number in the given layout; infinities and what is no number have names. -/
def text (layout : Layout) (x : Binary64) : String :=
  if x.isNaN then "NaN"
  else
    let body := if x.isInfinite then ['i', 'n', 'f'] else layout.write (x.shortest layout.halfway)
    String.ofList (if x.isNegative then '-' :: body else body)

end PluginHost.Binary64
