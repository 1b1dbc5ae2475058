import PluginHost.Binary64.Text
import PluginHost.Data.Datum
import PluginHost.Text.Quoted

/-!
# Writing JSON

Data on one line without spaces, or with every element and member on a line of its own, indented
by two spaces. What is no finite number is written as nothing.
-/

namespace PluginHost.Json

def controlLetter? (c : Char) : Option Char :=
  if c = '\x08' then some 'b'
  else if c = '\t' then some 't'
  else if c = '\n' then some 'n'
  else if c = '\x0c' then some 'f'
  else if c = '\r' then some 'r'
  else none

def writeChar (c : Char) : List Char :=
  if c = '\x22' then ['\\', '\x22']
  else if c = '\\' then ['\\', '\\']
  else if c.toNat < 0x20 then
    match controlLetter? c with
    | some letter => ['\\', letter]
    | none =>
      let digits := Text.hexDigits c.toNat
      ['\\', 'u'] ++ List.replicate (4 - digits.length) '0' ++ digits
  else [c]

def writeText (s : String) : List Char :=
  '\x22' :: s.toList.flatMap writeChar ++ ['\x22']

/-- A number that may have a fraction. -/
def writeFloat (x : Binary64) : List Char :=
  if x.isFinite then (x.text Binary64.dataLayout).toList else ['n', 'u', 'l', 'l']

mutual

/-- Data on one line. -/
def write : Datum → List Char
  | .null => ['n', 'u', 'l', 'l']
  | .bool true => ['t', 'r', 'u', 'e']
  | .bool false => ['f', 'a', 'l', 's', 'e']
  | .integer n => Number.intDigits n
  | .float x => writeFloat x
  | .text s => writeText s
  | .list [] => ['[', ']']
  | .list (d :: rest) => '[' :: write d ++ writeItems rest ++ [']']
  | .record [] => ['\x7b', '\x7d']
  | .record ((name, d) :: rest) =>
    '\x7b' :: writeText name ++ ':' :: write d ++ writeMembers rest ++ ['\x7d']

def writeItems : List Datum → List Char
  | [] => []
  | d :: rest => ',' :: write d ++ writeItems rest

def writeMembers : List (String × Datum) → List Char
  | [] => []
  | (name, d) :: rest => ',' :: writeText name ++ ':' :: write d ++ writeMembers rest

end

def newLine (depth : Nat) : List Char :=
  '\n' :: List.replicate (2 * depth) ' '

mutual

/-- Data with a line for every element and member. -/
def writeLines (depth : Nat) : Datum → List Char
  | .list (d :: rest) =>
    '[' :: newLine (depth + 1) ++ writeLines (depth + 1) d ++ writeItemLines (depth + 1) rest ++
      newLine depth ++ [']']
  | .record ((name, d) :: rest) =>
    '\x7b' :: newLine (depth + 1) ++ writeText name ++ ':' :: ' ' :: writeLines (depth + 1) d ++
      writeMemberLines (depth + 1) rest ++ newLine depth ++ ['\x7d']
  | d => write d

def writeItemLines (depth : Nat) : List Datum → List Char
  | [] => []
  | d :: rest => ',' :: newLine depth ++ writeLines depth d ++ writeItemLines depth rest

def writeMemberLines (depth : Nat) : List (String × Datum) → List Char
  | [] => []
  | (name, d) :: rest =>
    ',' :: newLine depth ++ writeText name ++ ':' :: ' ' :: writeLines depth d ++
      writeMemberLines depth rest

end

def text (d : Datum) : String :=
  String.ofList (write d)

def prettyText (d : Datum) : String :=
  String.ofList (writeLines 0 d)

end PluginHost.Json
