import PluginHost.Data.Decode
import PluginHost.Toml.Scalar
import PluginHost.Toml.Table
import PluginHost.Toml.Text

/-!
# Reading TOML

A document is its pairs before the first header and its sections. It is read whole before anybody
looks at what it says: one fault anywhere makes all of it unreadable.
-/

namespace PluginHost.Toml

def skipBlanks (cs : List Char) : List Char :=
  cs.dropWhile fun c => c == ' ' || c == '\t'

/-- The text from the end of the line on, if it begins with a comment. -/
def skipComment : List Char → Option (List Char)
  | '#' :: cs =>
    let comment := cs.takeWhile fun c => !isControl c
    match cs.drop comment.length with
    | [] => some []
    | rest => (afterNewline? rest).map fun _ => rest
  | cs => some cs

/-- The text after the end of a line that holds nothing more. -/
def endLine (cs : List Char) : Option (List Char) := do
  match ← skipComment (skipBlanks cs) with
  | [] => return []
  | rest => afterNewline? rest

/-- The text after blanks, comments and line ends. The number bounds the lines. -/
def skipFiller : Nat → List Char → Option (List Char)
  | 0, _ => none
  | n + 1, cs => do
    let rest ← skipComment (skipBlanks cs)
    match afterNewline? rest with
    | some more => skipFiller n more
    | none => return rest

def isNameChar (c : Char) : Bool :=
  c.isAlphanum || c == '-' || c == '_'

def scanName (cs : List Char) : Option (String × List Char) :=
  match scanQuoted cs with
  | some found => some found
  | none =>
    let (name, rest) := cs.span isNameChar
    if name.isEmpty then none else some (String.ofList name, rest)

/-- The parts of a name with dots between them, the last one apart. The number bounds the parts. -/
def scanPath : Nat → List Char → Option (List String × String × List Char)
  | 0, _ => none
  | n + 1, cs => do
    let (name, rest) ← scanName (skipBlanks cs)
    match skipBlanks rest with
    | '.' :: more => do
      let (path, last, after) ← scanPath n more
      return (name :: path, last, after)
    | after => return ([], name, after)

def partLimit : Nat := 80

def nestingLimit : Nat := 80

/-- The text after what may stand around the sign between a name and its value: inside an inline
table line ends and comments too. -/
def skipAroundSign (isInline : Bool) (cs : List Char) : Option (List Char) :=
  if isInline then skipFiller (cs.length + 1) cs else some (skipBlanks cs)

mutual

def scanValue : Nat → Nat → List Char → Option (Datum × List Char)
  | 0, _, _ => none
  | n + 1, depth, cs =>
    match cs with
    | '\x22' :: _ => (scanText cs).map fun (s, rest) => (.text s, rest)
    | '\x27' :: _ => (scanText cs).map fun (s, rest) => (.text s, rest)
    | '[' :: rest =>
      match depth with
      | 0 => none
      | inner + 1 => (scanItems n inner rest).map fun (items, after) => (.list items, after)
    | '\x7b' :: rest =>
      match depth with
      | 0 => none
      | inner + 1 => do
        let (pairs, after) ← scanPairs n inner rest
        let es ← addPairs .header [] pairs
        return (.record (Node.members es), after)
    | _ =>
      let (token, rest) := scanBare cs
      (readBare token).map fun d => (d, rest)

def scanItems : Nat → Nat → List Char → Option (List Datum × List Char)
  | 0, _, _ => none
  | n + 1, depth, cs => do
    match ← skipFiller (cs.length + 1) cs with
    | ']' :: rest => return ([], rest)
    | start => do
      let (d, rest) ← scanValue n depth start
      match ← skipFiller (rest.length + 1) rest with
      | ',' :: more => do
        let (items, after) ← scanItems n depth more
        return (d :: items, after)
      | ']' :: after => return ([d], after)
      | _ => none

def scanPairs : Nat → Nat → List Char → Option (List Pair × List Char)
  | 0, _, _ => none
  | n + 1, depth, cs => do
    match ← skipFiller (cs.length + 1) cs with
    | '\x7d' :: rest => return ([], rest)
    | start => do
      let (pair, rest) ← scanPair true n depth start
      match ← skipFiller (rest.length + 1) rest with
      | ',' :: more => do
        let (pairs, after) ← scanPairs n depth more
        return (pair :: pairs, after)
      | '\x7d' :: after => return ([pair], after)
      | _ => none

def scanPair (isInline : Bool) : Nat → Nat → List Char → Option (Pair × List Char)
  | 0, _, _ => none
  | n + 1, depth, cs => do
    let (path, name, rest) ← scanPath partLimit cs
    let '=' :: more ← skipAroundSign isInline rest | none
    let (value, after) ← scanValue n depth (← skipAroundSign isInline more)
    return (⟨path, name, value⟩, after)

end

def scanHeader (repeated : Bool) (cs : List Char) : Option (Section × List Char) := do
  let (path, name, rest) ← scanPath partLimit cs
  match rest, repeated with
  | ']' :: ']' :: after, true => return (⟨path, name, true, []⟩, after)
  | ']' :: after, false => return (⟨path, name, false, []⟩, after)
  | _, _ => none

inductive Line where
  | blank
  | pair (pair : Pair)
  | header (opened : Section)

/-- Reads a line up to its end or to the comment before it. A value may end lines further down. -/
def scanLine (cs : List Char) : Option (Line × List Char) :=
  match skipBlanks cs with
  | [] => some (.blank, [])
  | '[' :: '[' :: rest => (scanHeader true rest).map fun (s, after) => (.header s, after)
  | '[' :: rest => (scanHeader false rest).map fun (s, after) => (.header s, after)
  | start =>
    if start.head? = some '#' ∨ (afterNewline? start).isSome then some (.blank, start)
    else
      (scanPair false (3 * start.length + 3) nestingLimit start).map fun (p, after) =>
        (.pair p, after)

/-- Reads lines up to the end of the text. The number bounds the lines. -/
def scanAll : Nat → List Char → Option (List Line)
  | _, [] => some []
  | 0, _ :: _ => none
  | n + 1, cs => do
    let (line, rest) ← scanLine cs
    let next ← endLine rest
    let lines ← scanAll n next
    return line :: lines

/-- The pairs up to the first header, and the sections after them. -/
def sections : List Line → List Pair × List Section
  | [] => ([], [])
  | .blank :: rest => sections rest
  | .pair p :: rest =>
    let (pairs, more) := sections rest
    (p :: pairs, more)
  | .header s :: rest =>
    let (pairs, more) := sections rest
    ([], { s with pairs := pairs } :: more)

/-- The text without the mark of byte order that may stand at its start. -/
def skipMark : List Char → List Char
  | '\ufeff' :: cs => cs
  | cs => cs

/-- The record a document holds; nothing if the document is not well formed. -/
def readDocument? (text : String) : Option Datum := do
  let cs := skipMark text.toList
  let lines ← scanAll (cs.length + 1) cs
  let (pairs, rest) := sections lines
  let top ← addPairs .header [] pairs
  let es ← addSections top rest
  return .record (Node.members es)

/-! ## Decoding -/

def dialect : Dialect := ⟨Binary64.pointedLayout, .ignored⟩

def unreadable : String := "<toml syntax>"

def decode {α : Type} (decoder : Dialect → Tree → Decoded α) (text : String) : Except String α :=
  match readDocument? text with
  | none => .error unreadable
  | some d => (decoder dialect d.toTree).mapError fun e => e.message unreadable

end PluginHost.Toml
