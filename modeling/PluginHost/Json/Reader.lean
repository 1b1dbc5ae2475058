import PluginHost.Data.Decode
import PluginHost.Json.Text

/-!
# Reading JSON

The text of a document becomes a tree, which ends at the first fault that no reader can pass. A
document is decoded as far as it is right; only if its value is right does it matter whether
something follows it.
-/

namespace PluginHost.Json

/-- What was read of a value, and the text after it if anybody can go on there. -/
abbrev Piece := Tree × Option (List Char)

def isSpace (c : Char) : Bool :=
  c == ' ' || c == '\n' || c == '\t' || c == '\r'

def skipSpace (cs : List Char) : List Char :=
  cs.dropWhile isSpace

/-- A fault that stops everybody. -/
def stopped (fault : ReadFault) : Piece :=
  (.absent fault, none)

def readWord (value : Tree) : List Char → List Char → Piece
  | [], cs => (value, some cs)
  | _ :: _, [] => (.broken false .truncated (some .truncated), none)
  | w :: word, c :: cs =>
    if w = c then readWord value word cs
    else (.broken false .malformed (some .malformed), none)

def readNumber (cs : List Char) : Piece :=
  match scanNumber cs with
  | .error fault => (.broken false fault (some .malformed), none)
  | .ok (n, rest) =>
    match n.datum? with
    | some d => (d.toTree, some rest)
    | none => (.broken false .malformed none, some rest)

def readText (cs : List Char) : Piece :=
  match scanText cs cs, skipText cs cs with
  | .ok (value, rest), _ => (.text (String.ofList value), some rest)
  | .error fault, .ok (_, rest) => (.broken true fault none, some rest)
  | .error fault, .error skipping => (.broken true fault (some skipping), none)

/-- The name of a member, which a text stands for. -/
def nameOf : Tree → MemberName
  | .text s => .text s
  | .broken _ reading skipping => .broken reading skipping
  | _ => .broken .malformed (some .malformed)

/-- A member in whose place stands a fault. -/
def namelessMember (fault : ReadFault) : MemberName × Tree :=
  (.broken fault (some fault), .absent fault)

mutual

/-- Reads a value. The number bounds the nesting. -/
def readValue : Nat → List Char → Piece
  | 0, _ => stopped .malformed
  | n + 1, cs =>
    match skipSpace cs with
    | [] => stopped .truncated
    | 'n' :: rest => readWord .null ['u', 'l', 'l'] rest
    | 't' :: rest => readWord (.bool true) ['r', 'u', 'e'] rest
    | 'f' :: rest => readWord (.bool false) ['a', 'l', 's', 'e'] rest
    | '\x22' :: rest => readText rest
    | '[' :: rest =>
      let (items, ending, after) := readItems n true rest
      (.list items ending, after)
    | '\x7b' :: rest => readRecord n rest
    | c :: rest =>
      if c = '-' ∨ c.isDigit then readNumber (c :: rest) else stopped .malformed

def readItems : Nat → Bool → List Char → List Tree × Option ReadFault × Option (List Char)
  | 0, _, _ => ([], some .malformed, none)
  | n + 1, first, cs =>
    match skipSpace cs with
    | [] => ([], some .truncated, none)
    | ']' :: rest => ([], none, some rest)
    | c :: rest =>
      if first then readItem n (c :: rest)
      else if c = ',' then
        match skipSpace rest with
        | ']' :: _ => ([.absent .malformed], none, none)
        | more => readItem n more
      else ([], some .malformed, none)

/-- Reads an element and those after it. -/
def readItem : Nat → List Char → List Tree × Option ReadFault × Option (List Char)
  | 0, _ => ([], some .malformed, none)
  | n + 1, cs =>
    match readValue n cs with
    | (item, none) => ([item], none, none)
    | (item, some rest) =>
      let (items, ending, after) := readItems n false rest
      (item :: items, ending, after)

def readRecord : Nat → List Char → Piece
  | 0, _ => stopped .malformed
  | n + 1, cs =>
    match skipSpace cs with
    | [] => (.record [] (some .truncated), none)
    | '\x7d' :: rest => (.record [] none, some rest)
    | '\x22' :: rest =>
      let (members, ending, after) := readMember n rest
      (.record members ending, after)
    | other => (.record [namelessMember (faultAt other)] none, none)

def readMembers :
    Nat → List Char → List (MemberName × Tree) × Option ReadFault × Option (List Char)
  | 0, _ => ([], some .malformed, none)
  | n + 1, cs =>
    match skipSpace cs with
    | [] => ([], some .truncated, none)
    | '\x7d' :: rest => ([], none, some rest)
    | ',' :: rest =>
      match skipSpace rest with
      | '\x22' :: more => readMember n more
      | other => ([namelessMember (faultAt other)], none, none)
    | _ :: _ => ([], some .malformed, none)

/-- Reads a member after the opening quote of its name, and those after it. -/
def readMember :
    Nat → List Char → List (MemberName × Tree) × Option ReadFault × Option (List Char)
  | 0, _ => ([], some .malformed, none)
  | n + 1, cs =>
    let (nameText, afterName) := readText cs
    let name := nameOf nameText
    match afterName with
    | none => ([(name, .absent .malformed)], none, none)
    | some rest =>
      match skipSpace rest with
      | ':' :: more =>
        match readValue n more with
        | (value, none) => ([(name, value)], none, none)
        | (value, some left) =>
          let (members, ending, after) := readMembers n left
          ((name, value) :: members, ending, after)
      | other => ([(name, .absent (faultAt other))], none, none)

end

/-- A document: its value, and whether something else follows it. -/
structure Document where
  root : Tree
  trailing : Bool
  deriving Repr

def readDocument (text : String) : Document :=
  let cs := text.toList
  match readValue (3 * cs.length + 3) cs with
  | (root, none) => ⟨root, false⟩
  | (root, some rest) => ⟨root, !(skipSpace rest).isEmpty⟩

/-! ## Decoding -/

def dialect : Dialect := ⟨Binary64.dataLayout, .fault⟩

/-- How data that stands on its own is decoded. -/
def datumDialect : Dialect := ⟨Binary64.dataLayout, .tooLong⟩

def decode {α : Type} (decoder : Dialect → Tree → Decoded α) (text : String) : Decoded α := do
  let document := readDocument text
  let x ← decoder dialect document.root
  if document.trailing then .error (.unreadable .malformed) else return x

def decodeDatum {α : Type} (decoder : Dialect → Tree → Decoded α) (datum : Datum) : Decoded α :=
  decoder datumDialect datum.toTree

/-- The data of a document, if nothing is wrong with it. -/
def readDatum? (text : String) : Option Datum :=
  let document := readDocument text
  if document.trailing then none else document.root.datum?

end PluginHost.Json
