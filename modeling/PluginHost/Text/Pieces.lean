/-!
# Taking texts apart

Blanks are the characters with the Unicode property White_Space. Cutting at a separator never loses
a character: a text is its pieces with the separator between them.
-/

namespace PluginHost.Text

/-! ## Blanks -/

def isBlank (c : Char) : Bool :=
  let n := c.toNat
  (0x9 ≤ n && n ≤ 0xd) || n == 0x20 || n == 0x85 || n == 0xa0 || n == 0x1680 ||
    (0x2000 ≤ n && n ≤ 0x200a) || n == 0x2028 || n == 0x2029 || n == 0x202f || n == 0x205f ||
    n == 0x3000

def trimStart (cs : List Char) : List Char :=
  cs.dropWhile isBlank

def trimEnd (cs : List Char) : List Char :=
  (cs.reverse.dropWhile isBlank).reverse

def trim (cs : List Char) : List Char :=
  trimEnd (trimStart cs)

/-- A text is blank if it holds nothing but blanks; the empty text is blank. -/
def allBlank (s : String) : Bool :=
  s.toList.all isBlank

/-! ## Pieces -/

/-- The pieces of a text between the occurrences of a separator; never an empty list. -/
def pieces (separator : Char) : List Char → List (List Char)
  | [] => [[]]
  | c :: cs =>
    if c = separator then [] :: pieces separator cs
    else
      match pieces separator cs with
      | [] => [[c]]
      | piece :: rest => (c :: piece) :: rest

/-- Writes the pieces one after the other with a separator between neighbours. -/
def joinPieces (separator : Char) : List (List Char) → List Char
  | [] => []
  | [piece] => piece
  | piece :: rest => piece ++ separator :: joinPieces separator rest

/-- Replaces every occurrence of a pattern, from left to right and without overlap, in a text
whose first characters, `skip` of them, belong to an occurrence that was replaced already. -/
def replaceFrom (pattern replacement : List Char) : Nat → List Char → List Char
  | _, [] => []
  | skip + 1, _ :: cs => replaceFrom pattern replacement skip cs
  | 0, c :: cs =>
    if pattern ≠ [] ∧ pattern.isPrefixOf (c :: cs) then
      replacement ++ replaceFrom pattern replacement (pattern.length - 1) cs
    else c :: replaceFrom pattern replacement 0 cs

def replaceAll (pattern replacement text : String) : String :=
  String.ofList (replaceFrom pattern.toList replacement.toList 0 text.toList)

end PluginHost.Text
