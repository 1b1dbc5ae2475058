import PluginHost.Number.Integer
import PluginHost.Text.Quoted

/-!
# Texts of a TOML document

A text stands between double quotes, where a backslash escapes, or between single quotes, where
nothing does; between three of either it may go over several lines. Reading and writing are side by
side here: what a style can hold decides which style is written.
-/

namespace PluginHost.Toml

/-- Control characters, which no text may hold as they are; a tab is none. -/
def isControl (c : Char) : Bool :=
  (c.toNat < 0x20 && c != '\t') || c == '\x7f'

/-! ## Reading -/

def scanCode (count : Nat) (cs : List Char) : Option (Char × List Char) := do
  let digits ← (cs.take count).mapM (Number.digitIn? 16)
  let code := digits.foldl (fun n d => n * 16 + d) 0
  if digits.length = count ∧ code.isValidChar then some (Char.ofNat code, cs.drop count) else none

def scanEscape : List Char → Option (Char × List Char)
  | 'b' :: cs => some ('\x08', cs)
  | 't' :: cs => some ('\t', cs)
  | 'n' :: cs => some ('\n', cs)
  | 'f' :: cs => some ('\x0c', cs)
  | 'r' :: cs => some ('\r', cs)
  | 'e' :: cs => some ('\x1b', cs)
  | '\x22' :: cs => some ('\x22', cs)
  | '\\' :: cs => some ('\\', cs)
  | 'x' :: cs => scanCode 2 cs
  | 'u' :: cs => scanCode 4 cs
  | 'U' :: cs => scanCode 8 cs
  | _ => none

/-- A text on one line after its opening double quote. The number bounds its characters. -/
def scanBasic : Nat → List Char → Option (List Char × List Char)
  | 0, _ => none
  | _ + 1, [] => none
  | _ + 1, '\x22' :: cs => some ([], cs)
  | n + 1, '\\' :: cs => do
    let (c, rest) ← scanEscape cs
    let (more, after) ← scanBasic n rest
    return (c :: more, after)
  | n + 1, c :: cs =>
    if isControl c then none
    else do
      let (more, after) ← scanBasic n cs
      return (c :: more, after)

def scanLiteral : List Char → Option (List Char × List Char)
  | [] => none
  | '\x27' :: cs => some ([], cs)
  | c :: cs =>
    if isControl c then none
    else do
      let (more, after) ← scanLiteral cs
      return (c :: more, after)

def afterNewline? : List Char → Option (List Char)
  | '\n' :: cs => some cs
  | '\r' :: '\n' :: cs => some cs
  | _ => none

/-- The quotes at the start of a text: as many as belong to the text on several lines, which are
two at most, and the text after three more that close it; or nothing if they do not close it. -/
def closing? (quote : Char) (cs : List Char) : Option (List Char × List Char) :=
  let count := min 5 (cs.takeWhile (· == quote)).length
  if 3 ≤ count then some (List.replicate (count - 3) quote, cs.drop count) else none

def skipFold : List Char → List Char
  | ' ' :: cs => skipFold cs
  | '\t' :: cs => skipFold cs
  | '\n' :: cs => skipFold cs
  | '\r' :: '\n' :: cs => skipFold cs
  | cs => cs

/-- The text after a backslash, if nothing but blanks stands between it and the line's end. -/
def afterFold? (cs : List Char) : Option (List Char) :=
  let blank (c : Char) : Bool := c == ' ' || c == '\t'
  (afterNewline? (cs.dropWhile blank)).map skipFold

def scanLines (quote : Char) : Nat → List Char → Option (List Char × List Char)
  | 0, _ => none
  | _ + 1, [] => none
  | n + 1, c :: cs =>
    let keep (c : Char) (rest : List Char) : Option (List Char × List Char) := do
      let (more, after) ← scanLines quote n rest
      return (c :: more, after)
    if c = quote then
      match closing? quote (c :: cs) with
      | some found => some found
      | none => keep c cs
    else if c = '\\' ∧ quote = '\x22' then
      match afterFold? cs with
      | some rest => scanLines quote n rest
      | none => do
        let (x, rest) ← scanEscape cs
        keep x rest
    else if c = '\n' then keep c cs
    else if c = '\r' ∧ cs.head? = some '\n' then keep c cs
    else if isControl c then none
    else keep c cs

/-- A text on several lines; a line's end right after the opening quotes does not belong to it. -/
def scanFramed (quote : Char) (cs : List Char) : Option (List Char × List Char) :=
  let body := (afterNewline? cs).getD cs
  scanLines quote (body.length + 1) body

def scanQuoted : List Char → Option (String × List Char)
  | '\x22' :: cs => (scanBasic (cs.length + 1) cs).map fun (s, rest) => (String.ofList s, rest)
  | '\x27' :: cs => (scanLiteral cs).map fun (s, rest) => (String.ofList s, rest)
  | _ => none

/-- A quoted text in any style. -/
def scanText : List Char → Option (String × List Char)
  | '\x22' :: '\x22' :: '\x22' :: cs =>
    (scanFramed '\x22' cs).map fun (s, rest) => (String.ofList s, rest)
  | '\x27' :: '\x27' :: '\x27' :: cs =>
    (scanFramed '\x27' cs).map fun (s, rest) => (String.ofList s, rest)
  | cs => scanQuoted cs

/-! ## Writing -/

inductive Style where
  | basic
  | literal
  | basicLines
  | literalLines
  deriving DecidableEq, Repr

def longestRun (c : Char) : Nat → List Char → Nat
  | _, [] => 0
  | count, x :: xs =>
    if x = c then max (count + 1) (longestRun c (count + 1) xs) else longestRun c 0 xs

def needsCode (c : Char) : Bool :=
  isControl c && c != '\n'

/-- The style for a text: the plainest that needs no escape, and escapes if every style does. -/
def styleFor (cs : List Char) : Style :=
  let coded := cs.any needsCode
  let lines := cs.contains '\n'
  let escaped := cs.contains '\\'
  let quotes := longestRun '\x22' 0 cs
  let apostrophes := longestRun '\x27' 0 cs
  if !coded && !escaped && quotes = 0 && !lines then .basic
  else if !coded && apostrophes = 0 && !lines then .literal
  else if !coded && !escaped && quotes ≤ 2 then .basicLines
  else if !coded && apostrophes ≤ 2 then .literalLines
  else if lines then .basicLines
  else .basic

def codeDigits (n : Nat) : List Char :=
  let digits := (Text.hexDigits n).map Char.toUpper
  List.replicate (4 - digits.length) '0' ++ digits

/-- A text between double quotes; `run` quotes stand directly before it. -/
def writeEscaped (lines : Bool) : Nat → List Char → List Char
  | _, [] => []
  | run, c :: cs =>
    let quoteRun := if c = '\x22' then run + 1 else 0
    let written :=
      if c = '\x22' then
        if lines && quoteRun ≤ 2 then ['\x22'] else ['\\', '\x22']
      else if c = '\\' then ['\\', '\\']
      else if c = '\x08' then ['\\', 'b']
      else if c = '\t' then ['\\', 't']
      else if c = '\n' then if lines then ['\n'] else ['\\', 'n']
      else if c = '\x0c' then ['\\', 'f']
      else if c = '\r' then ['\\', 'r']
      else if isControl c then ['\\', 'u'] ++ codeDigits c.toNat
      else [c]
    written ++ writeEscaped lines (if quoteRun ≤ 2 then quoteRun else 0) cs

def writeStyled (style : Style) (cs : List Char) : List Char :=
  let opening := if cs.contains '\n' then ['\n'] else []
  match style with
  | .basic => '\x22' :: writeEscaped false 0 cs ++ ['\x22']
  | .literal => '\x27' :: cs ++ ['\x27']
  | .basicLines =>
    List.replicate 3 '\x22' ++ opening ++ writeEscaped true 0 cs ++ List.replicate 3 '\x22'
  | .literalLines => List.replicate 3 '\x27' ++ opening ++ cs ++ List.replicate 3 '\x27'

def writeText (s : String) : List Char :=
  writeStyled (styleFor s.toList) s.toList

end PluginHost.Toml
