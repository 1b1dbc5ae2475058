import PluginHost.Json.Number

/-!
# Texts of a JSON document

Between the quotes a control character has to be escaped. A code that stands for half a character
has to be followed by the other half; whoever skips a text does not ask for that.
-/

namespace PluginHost.Json

def codeOf? (cs : List Char) : Option Nat :=
  cs.foldl (fun n c => n.bind fun n => (Number.digitIn? 16 c).map fun d => n * 16 + d) (some 0)

/-- Four hexadecimal digits. The text has ended early if less than four bytes are left. -/
def scanCode (cs : List Char) : Except ReadFault (Nat × List Char) :=
  if (cs.take 4).foldl (fun n c => n + c.utf8Size) 0 < 4 then .error .truncated
  else
    match codeOf? (cs.take 4) with
    | some code => if (cs.take 4).length = 4 then .ok (code, cs.drop 4) else .error .malformed
    | none => .error .malformed

def escapeOf? : Char → Option Char
  | '\x22' => some '\x22'
  | '\\' => some '\\'
  | '/' => some '/'
  | 'b' => some '\x08'
  | 'f' => some '\x0c'
  | 'n' => some '\n'
  | 'r' => some '\r'
  | 't' => some '\t'
  | _ => none

/-- A code at or beyond the first half of a character written in two codes. -/
def isHalf (code : Nat) : Bool :=
  0xd800 ≤ code && code ≤ 0xdfff

/-- The second half after a first half. -/
def scanSecondHalf (first : Nat) : List Char → Except ReadFault (Char × List Char)
  | '\\' :: 'u' :: cs => do
    let (second, rest) ← scanCode cs
    if 0xdc00 ≤ second ∧ second ≤ 0xdfff then
      return (Char.ofNat (0x10000 + (first - 0xd800) * 0x400 + (second - 0xdc00)), rest)
    else .error .malformed
  | ['\\'] => .error .truncated
  | cs => .error (faultAt cs)

def scanEscapedCode (cs : List Char) : Except ReadFault (Char × List Char) := do
  let (code, rest) ← scanCode cs
  if isHalf code then
    if code < 0xdc00 then scanSecondHalf code rest else .error .malformed
  else return (Char.ofNat code, rest)

def scanEscape : List Char → Except ReadFault (Char × List Char)
  | [] => .error .truncated
  | 'u' :: cs => scanEscapedCode cs
  | c :: cs =>
    match escapeOf? c with
    | some x => .ok (x, cs)
    | none => .error .malformed

/-- Reads a text after its opening quote. The first list, which is at least as long as what is left,
bounds the steps. -/
def scanText : List Char → List Char → Except ReadFault (List Char × List Char)
  | _, [] => .error .truncated
  | [], _ :: _ => .error .truncated
  | _ :: _, '\x22' :: cs => .ok ([], cs)
  | _ :: bound, '\\' :: cs => do
    let (x, rest) ← scanEscape cs
    let (more, after) ← scanText bound rest
    return (x :: more, after)
  | _ :: bound, c :: cs =>
    if c.toNat < 0x20 then .error .malformed
    else do
      let (more, after) ← scanText bound cs
      return (c :: more, after)

/-- What follows a backslash, for whoever skips the text. -/
def skipEscape : List Char → Except ReadFault (Unit × List Char)
  | [] => .error .truncated
  | 'u' :: cs => do
    let (_, rest) ← scanCode cs
    return ((), rest)
  | c :: cs => if (escapeOf? c).isSome then .ok ((), cs) else .error .malformed

/-- Skips a text after its opening quote. The first list bounds the steps. -/
def skipText : List Char → List Char → Except ReadFault (Unit × List Char)
  | _, [] => .error .truncated
  | [], _ :: _ => .error .truncated
  | _ :: _, '\x22' :: cs => .ok ((), cs)
  | _ :: bound, '\\' :: cs => do
    let (_, rest) ← skipEscape cs
    skipText bound rest
  | _ :: bound, c :: cs => if c.toNat < 0x20 then .error .malformed else skipText bound cs

end PluginHost.Json
