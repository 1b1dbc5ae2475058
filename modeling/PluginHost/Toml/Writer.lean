import PluginHost.Binary64.Text
import PluginHost.Data.Datum
import PluginHost.Toml.Text

/-!
# Writing TOML

A record is written as its plain members first and then a section for every member that is a
record itself.
-/

namespace PluginHost.Toml

def writeName (name : String) : List Char :=
  let cs := name.toList
  let isPlain (c : Char) : Bool := c.isAlphanum || c == '-' || c == '_'
  if !cs.isEmpty && cs.all isPlain then cs else writeText name

mutual

/-- A value on one line; a record among the elements of a list is written inline. -/
def writeValue : Datum → List Char
  | .null => []
  | .bool b => if b then ['t', 'r', 'u', 'e'] else ['f', 'a', 'l', 's', 'e']
  | .integer n => Number.intDigits n
  | .float x => (x.text Binary64.pointedLayout).toList.map Char.toLower
  | .text s => writeText s
  | .list [] => ['[', ']']
  | .list (d :: rest) => '[' :: writeValue d ++ writeItems rest ++ [']']
  | .record [] => ['\x7b', '\x7d']
  | .record ((name, d) :: rest) =>
    ['\x7b', ' '] ++ writeName name ++ [' ', '=', ' '] ++ writeValue d ++ writeMembers rest ++
      [' ', '\x7d']

def writeItems : List Datum → List Char
  | [] => []
  | d :: rest => [',', ' '] ++ writeValue d ++ writeItems rest

def writeMembers : List (String × Datum) → List Char
  | [] => []
  | (name, d) :: rest =>
    [',', ' '] ++ writeName name ++ [' ', '=', ' '] ++ writeValue d ++ writeMembers rest

end

def writePairs : List (String × Datum) → List Char
  | [] => []
  | (_, .record _) :: rest => writePairs rest
  | (name, d) :: rest =>
    writeName name ++ [' ', '=', ' '] ++ writeValue d ++ '\n' :: writePairs rest

/-- The members of a record that are records themselves, each under a header. -/
def writeSections : List (String × Datum) → List (List Char)
  | [] => []
  | (name, .record members) :: rest =>
    ('[' :: writeName name ++ [']', '\n'] ++ writePairs members) :: writeSections rest
  | _ :: rest => writeSections rest

/-- The text of a record whose members hold no records of records. -/
def text (members : List (String × Datum)) : String :=
  let top := writePairs members
  let parts := (if top.isEmpty then [] else [top]) ++ writeSections members
  String.ofList (List.intercalate ['\n'] parts)

end PluginHost.Toml
