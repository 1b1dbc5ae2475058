import PluginHost.Binary64.Literal
import PluginHost.Data.Datum
import PluginHost.Text.Pieces

/-!
# Bare values of a TOML document

Truth values, numbers and dates are written without quotes. Underscores may stand between digits,
and a number does not begin with a needless zero.
-/

namespace PluginHost.Toml

/-- Digits without the underscores between them; nothing if an underscore stands elsewhere or
something is no digit. -/
def ungroup? (isDigit : Char → Bool) (cs : List Char) : Option (List Char) :=
  let groups := Text.pieces '_' cs
  if groups.all fun group => !group.isEmpty && group.all isDigit then some groups.flatten else none

def hasNeedlessZero : List Char → Bool
  | '0' :: _ :: _ => true
  | _ => false

/-- The digits of a whole number without a sign. -/
def wholeDigits? (cs : List Char) : Option (List Char) :=
  (ungroup? Char.isDigit cs).filter fun digits => !hasNeedlessZero digits

def baseValue (base : Nat) (digits : List Char) : Nat :=
  digits.foldl (fun n c => n * base + (Number.digitIn? base c).getD 0) 0

/-- An integer that fits a hundred and twenty-eight bits, signed or unsigned. -/
def integer? (n : Int) : Option Datum :=
  if -(twoTo 127 : Int) ≤ n ∧ n < twoTo 128 then some (.integer n) else none

def readBase (base : Nat) (cs : List Char) : Option Datum := do
  let digits ← ungroup? (fun c => (Number.digitIn? base c).isSome) cs
  integer? (baseValue base digits)

def splitSign : List Char → Option Char × List Char
  | '+' :: cs => (some '+', cs)
  | '-' :: cs => (some '-', cs)
  | cs => (none, cs)

def readInteger (cs : List Char) : Option Datum := do
  let (sign, unsigned) := splitSign cs
  let digits ← wholeDigits? unsigned
  let n : Int := baseValue 10 digits
  integer? (if sign = some '-' then -n else n)

/-- A number with a fraction or an exponent, as a literal without underscores. -/
def floatLiteral? (cs : List Char) : Option (List Char) := do
  let (sign, unsigned) := splitSign cs
  let isMark (c : Char) : Bool := c == 'e' || c == 'E'
  let mantissa := unsigned.takeWhile fun c => !isMark c
  let exponent := unsigned.dropWhile fun c => !isMark c
  let whole ← wholeDigits? (mantissa.takeWhile (· != '.'))
  let fraction ←
    match mantissa.dropWhile (· != '.') with
    | [] => some []
    | _ :: digits => (ungroup? Char.isDigit digits).map ('.' :: ·)
  let scale ←
    match exponent with
    | [] => some []
    | _ :: more =>
      let (exponentSign, digits) := splitSign more
      (ungroup? Char.isDigit digits).map fun digits => 'e' :: exponentSign.toList ++ digits
  if fraction.isEmpty && scale.isEmpty then none
  else some (sign.toList ++ whole ++ fraction ++ scale)

/-- A number with a fraction or an exponent that is not too great for a double. -/
def readFloat (cs : List Char) : Option Datum := do
  let literal ← floatLiteral? cs
  match Binary64.readLiteral literal with
  | .ok x => if x.isInfinite then none else some (.float x)
  | .error _ => none

/-! ## Dates -/

def twoDigits? : List Char → Option (Nat × List Char)
  | a :: b :: rest =>
    if a.isDigit && b.isDigit then some (baseValue 10 [a, b], rest) else none
  | _ => none

def isLeapYear (year : Nat) : Bool :=
  year % 4 == 0 && (year % 100 != 0 || year % 400 == 0)

def daysIn (year month : Nat) : Nat :=
  if month = 2 then (if isLeapYear year then 29 else 28)
  else if month = 4 ∨ month = 6 ∨ month = 9 ∨ month = 11 then 30
  else 31

def afterDate? (cs : List Char) : Option (List Char) := do
  let (century, cs) ← twoDigits? cs
  let (yearOfCentury, cs) ← twoDigits? cs
  let '-' :: cs := cs | none
  let (month, cs) ← twoDigits? cs
  let '-' :: cs := cs | none
  let (day, cs) ← twoDigits? cs
  let year := 100 * century + yearOfCentury
  if 1 ≤ month ∧ month ≤ 12 ∧ 1 ≤ day ∧ day ≤ daysIn year month then some cs else none

def afterFraction? : List Char → Option (List Char)
  | '.' :: cs =>
    if (cs.takeWhile Char.isDigit).isEmpty then none else some (cs.dropWhile Char.isDigit)
  | cs => some cs

/-- The text after a time of day. The seconds may be left out. -/
def afterTime? (cs : List Char) : Option (List Char) := do
  let (hour, cs) ← twoDigits? cs
  let ':' :: cs := cs | none
  let (minute, cs) ← twoDigits? cs
  if 23 < hour ∨ 59 < minute then none
  else
    match cs with
    | ':' :: cs =>
      let (second, cs) ← twoDigits? cs
      if 60 < second then none else afterFraction? cs
    | cs => some cs

/-- Whether the text is nothing or an offset from universal time. -/
def isOffset (cs : List Char) : Bool :=
  match cs with
  | [] => true
  | ['Z'] => true
  | ['z'] => true
  | sign :: cs =>
    (sign == '+' || sign == '-') &&
      match twoDigits? cs with
      | some (hour, ':' :: cs) =>
        match twoDigits? cs with
        | some (minute, []) => hour ≤ 23 && minute ≤ 59
        | _ => false
      | _ => false

/-- Whether the text is a date, a time, or both with or without an offset. -/
def isDateTime (cs : List Char) : Bool :=
  match afterDate? cs with
  | some [] => true
  | some (separator :: rest) =>
    (separator == 'T' || separator == 't' || separator == ' ') &&
      match afterTime? rest with
      | some offset => isOffset offset
      | none => false
  | none => afterTime? cs == some []

/-- The name of the only member of the record that stands for a date. -/
def dateMember : String := "$__toml_private_datetime"

/-- A date is a record that holds its text. -/
def readDate (cs : List Char) : Option Datum :=
  if isDateTime cs then some (.record [(dateMember, .text (String.ofList cs))]) else none

def readWord : List Char → Option Datum
  | ['t', 'r', 'u', 'e'] => some (.bool true)
  | ['f', 'a', 'l', 's', 'e'] => some (.bool false)
  | cs =>
    let (sign, unsigned) := splitSign cs
    match unsigned with
    | ['i', 'n', 'f'] => some (.float (Binary64.infinity (sign == some '-')))
    | ['n', 'a', 'n'] =>
      some (.float (if sign = some '-' then Binary64.nan.negate else Binary64.nan))
    | _ => none

def readBare : List Char → Option Datum
  | '0' :: 'x' :: cs => readBase 16 cs
  | '0' :: 'o' :: cs => readBase 8 cs
  | '0' :: 'b' :: cs => readBase 2 cs
  | cs => readWord cs <|> readInteger cs <|> readFloat cs <|> readDate cs

def isBareChar (c : Char) : Bool :=
  c.isAlphanum || c == '+' || c == '-' || c == '_' || c == '.' || c == ':'

/-- The bare value at the start of a text. A date goes on after a space if a time follows. -/
def scanBare (cs : List Char) : List Char × List Char :=
  let (token, rest) := cs.span isBareChar
  match rest with
  | ' ' :: a :: b :: ':' :: more =>
    if afterDate? token == some [] && a.isDigit && b.isDigit then
      let (time, after) := (a :: b :: ':' :: more).span isBareChar
      (token ++ ' ' :: time, after)
    else (token, rest)
  | _ => (token, rest)

end PluginHost.Toml
