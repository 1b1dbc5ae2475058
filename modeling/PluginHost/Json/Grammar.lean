import PluginHost.Json.Reader

/-!
# The grammar of JSON

What a JSON text says, and how it may be spelled: with blanks between its parts, with characters of
a text as they are or escaped, and with numbers in any notation.
-/

namespace PluginHost.Json

/-- A value as a text says it: a number is still what is written. -/
inductive Value where
  | null
  | bool (value : Bool)
  | number (written : NumberText)
  | text (value : String)
  | list (items : List Value)
  | record (members : List (String × Value))

def NumberText.tree (n : NumberText) : Tree :=
  match n.datum? with
  | some d => d.toTree
  | none => .broken false .malformed none

/-- The integer that is written without a point and without an exponent. -/
def NumberText.integer? (n : NumberText) : Option Int :=
  match n.fraction, n.exponent with
  | none, none =>
    let size : Int := Binary64.digitsValue 0 n.whole
    some (if n.negative then -size else size)
  | _, _ => none

mutual

/-- What is read of a value. -/
def Value.tree : Value → Tree
  | .null => .null
  | .bool b => .bool b
  | .number n => n.tree
  | .text s => .text s
  | .list items => .list (Value.trees items) none
  | .record members => .record (Value.memberTrees members) none

def Value.trees : List Value → List Tree
  | [] => []
  | v :: rest => v.tree :: Value.trees rest

def Value.memberTrees : List (String × Value) → List (MemberName × Tree)
  | [] => []
  | (name, v) :: rest => (.text name, v.tree) :: Value.memberTrees rest

end

/-! ## Spellings -/

/-- What may stand between the parts of a text. -/
def Blanks (cs : List Char) : Prop :=
  ∀ c ∈ cs, isSpace c = true

/-- One decimal digit or more. -/
structure Digits (cs : List Char) : Prop where
  nonempty : cs ≠ []
  digits : ∀ c ∈ cs, c.isDigit = true

/-- Digits before a point: more than one do not begin with zero. -/
structure WholeDigits (cs : List Char) : Prop extends Digits cs where
  needed : ∀ c rest, cs ≠ '0' :: c :: rest

inductive SpellsFraction : Option (List Char) → List Char → Prop where
  | none : SpellsFraction none []
  | some {digits} (h : Digits digits) : SpellsFraction (some digits) ('.' :: digits)

/-- How the sign of an exponent is spelled. -/
inductive SpellsSign : Bool → List Char → Prop where
  | minus : SpellsSign true ['-']
  | plus : SpellsSign false ['+']
  | unsigned : SpellsSign false []

inductive SpellsExponent : Option (Bool × List Char) → List Char → Prop where
  | none : SpellsExponent none []
  | some {mark negative sign digits} (hmark : mark = 'e' ∨ mark = 'E')
      (hsign : SpellsSign negative sign) (h : Digits digits) :
      SpellsExponent (some (negative, digits)) (mark :: (sign ++ digits))

inductive SpellsUnsigned (negative : Bool) : NumberText → List Char → Prop where
  | mk {whole fraction exponent fractionPart exponentPart} (hwhole : WholeDigits whole)
      (hfraction : SpellsFraction fraction fractionPart)
      (hexponent : SpellsExponent exponent exponentPart) :
      SpellsUnsigned negative ⟨negative, whole, fraction, exponent⟩
        (whole ++ (fractionPart ++ exponentPart))

inductive SpellsNumber : NumberText → List Char → Prop where
  | negative {n cs} (h : SpellsUnsigned true n cs) : SpellsNumber n ('-' :: cs)
  | natural {n cs} (h : SpellsUnsigned false n cs) : SpellsNumber n cs

/-- How the characters of a text are spelled between its quotes. -/
inductive SpellsText : List Char → List Char → Prop where
  | nil : SpellsText [] []
  | plain {c s cs} (hquote : c ≠ '\x22') (hescape : c ≠ '\\') (hcontrol : 0x20 ≤ c.toNat)
      (h : SpellsText s cs) : SpellsText (c :: s) (c :: cs)
  | escaped {letter c s cs} (hletter : escapeOf? letter = some c) (h : SpellsText s cs) :
      SpellsText (c :: s) ('\\' :: letter :: cs)
  | code {digits code s cs} (hcount : digits.length = 4) (hcode : codeOf? digits = some code)
      (hwhole : isHalf code = false) (h : SpellsText s cs) :
      SpellsText (Char.ofNat code :: s) ('\\' :: 'u' :: (digits ++ cs))
  | halves {firstDigits secondDigits first second s cs}
      (hcountFirst : firstDigits.length = 4) (hfirst : codeOf? firstDigits = some first)
      (hfirstHalf : 0xd800 ≤ first ∧ first < 0xdc00)
      (hcountSecond : secondDigits.length = 4) (hsecond : codeOf? secondDigits = some second)
      (hsecondHalf : 0xdc00 ≤ second ∧ second ≤ 0xdfff) (h : SpellsText s cs) :
      SpellsText
        (Char.ofNat (0x10000 + (first - 0xd800) * 0x400 + (second - 0xdc00)) :: s)
        ('\\' :: 'u' :: (firstDigits ++ '\\' :: 'u' :: (secondDigits ++ cs)))

mutual

inductive Spells : Value → List Char → Prop where
  | null : Spells .null ['n', 'u', 'l', 'l']
  | wordTrue : Spells (.bool true) ['t', 'r', 'u', 'e']
  | wordFalse : Spells (.bool false) ['f', 'a', 'l', 's', 'e']
  | number {n cs} (h : SpellsNumber n cs) : Spells (.number n) cs
  | text {s cs} (h : SpellsText s.toList cs) : Spells (.text s) ('\x22' :: (cs ++ ['\x22']))
  | emptyList {blanks} (h : Blanks blanks) : Spells (.list []) ('[' :: (blanks ++ [']']))
  | list {v items before cs more} (hbefore : Blanks before) (h : Spells v cs)
      (hmore : SpellsItems items more) :
      Spells (.list (v :: items)) ('[' :: (before ++ (cs ++ (more ++ [']']))))
  | emptyRecord {blanks} (h : Blanks blanks) :
      Spells (.record []) ('\x7b' :: (blanks ++ ['\x7d']))
  | record {m members before cs more} (hbefore : Blanks before) (h : SpellsMember m cs)
      (hmore : SpellsMembers members more) :
      Spells (.record (m :: members)) ('\x7b' :: (before ++ '\x22' :: (cs ++ (more ++ ['\x7d']))))

inductive SpellsItems : List Value → List Char → Prop where
  | nil {blanks} (h : Blanks blanks) : SpellsItems [] blanks
  | cons {v items gap before cs more} (hgap : Blanks gap) (hbefore : Blanks before)
      (h : Spells v cs) (hmore : SpellsItems items more) :
      SpellsItems (v :: items) (gap ++ ',' :: (before ++ (cs ++ more)))

/-- How a member is spelled after the opening quote of its name. -/
inductive SpellsMember : String × Value → List Char → Prop where
  | mk {name v nameText afterName before cs} (hname : SpellsText name.toList nameText)
      (hafterName : Blanks afterName) (hbefore : Blanks before) (h : Spells v cs) :
      SpellsMember (name, v) (nameText ++ '\x22' :: (afterName ++ ':' :: (before ++ cs)))

inductive SpellsMembers : List (String × Value) → List Char → Prop where
  | nil {blanks} (h : Blanks blanks) : SpellsMembers [] blanks
  | cons {m members gap before cs more} (hgap : Blanks gap) (hbefore : Blanks before)
      (h : SpellsMember m cs) (hmore : SpellsMembers members more) :
      SpellsMembers (m :: members) (gap ++ ',' :: (before ++ '\x22' :: (cs ++ more)))

end

/-- A document says a value if it spells it, with blanks around it or without. -/
inductive Says : String → Value → Prop where
  | mk {v before cs after} (hbefore : Blanks before) (h : Spells v cs) (hafter : Blanks after) :
      Says (String.ofList (before ++ (cs ++ after))) v

end PluginHost.Json
