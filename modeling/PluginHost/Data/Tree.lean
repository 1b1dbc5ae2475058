import PluginHost.Binary64.Text
import PluginHost.Data.Datum
import PluginHost.Text.Quoted

/-!
# What is read of a text

Data is decoded in the order in which it stands, so a value of the wrong type is found before a
fault of the text after it. A tree therefore holds what could be read up to a fault, and the fault
at its place. Parts that nobody asks for are skipped; skipping is less strict than reading, which
is why a fault says what it means to either.
-/

namespace PluginHost

/-- Why a text could not be read on. -/
inductive ReadFault where
  | malformed
  /-- The text ends too early. -/
  | truncated
  deriving DecidableEq, Repr

/-- The name of a member: a text, or what was found instead. After a fault that does not stop
skipping, the member goes on. -/
inductive MemberName where
  | text (value : String)
  | broken (reading : ReadFault) (skipping : Option ReadFault)
  deriving DecidableEq, Repr

inductive Tree where
  | null
  | bool (value : Bool)
  | integer (value : Int)
  | float (value : Binary64)
  | text (value : String)
  /-- The elements and, unless the list is closed, the fault after them. -/
  | list (items : List Tree) (ending : Option ReadFault)
  /-- The members and, unless the record is closed, the fault after them. -/
  | record (members : List (MemberName × Tree)) (ending : Option ReadFault)
  /-- Nothing: the fault stands where a value should begin. -/
  | absent (fault : ReadFault)
  /-- A word, a number or a text that denotes no value. -/
  | broken (isText : Bool) (reading : ReadFault) (skipping : Option ReadFault)
  deriving Repr, Inhabited

mutual

def Datum.toTree : Datum → Tree
  | .null => .null
  | .bool b => .bool b
  | .integer n => .integer n
  | .float x => .float x
  | .text s => .text s
  | .list items => .list (Datum.toTrees items) none
  | .record members => .record (Datum.toMembers members) none

def Datum.toTrees : List Datum → List Tree
  | [] => []
  | d :: rest => d.toTree :: Datum.toTrees rest

def Datum.toMembers : List (String × Datum) → List (MemberName × Tree)
  | [] => []
  | (name, d) :: rest => (.text name, d.toTree) :: Datum.toMembers rest

end

mutual

/-- The data of a tree without faults. -/
def Tree.datum? : Tree → Option Datum
  | .null => some .null
  | .bool b => some (.bool b)
  | .integer n => some (.integer n)
  | .float x => some (.float x)
  | .text s => some (.text s)
  | .list items none => (Tree.data? items).map .list
  | .record members none => (Tree.memberData? members).map .record
  | _ => none

def Tree.data? : List Tree → Option (List Datum)
  | [] => some []
  | t :: rest => do
    let d ← t.datum?
    let ds ← Tree.data? rest
    return d :: ds

def Tree.memberData? : List (MemberName × Tree) → Option (List (String × Datum))
  | [] => some []
  | (.text name, t) :: rest => do
    let d ← t.datum?
    let ds ← Tree.memberData? rest
    return (name, d) :: ds
  | (.broken .., _) :: _ => none

end

def ReadFault.raise : Option ReadFault → Except ReadFault Unit
  | none => .ok ()
  | some fault => .error fault

mutual

/-- Passes over a value that nobody asks for. -/
def Tree.skip : Tree → Except ReadFault Unit
  | .list items ending => do
    Tree.skipItems items
    ReadFault.raise ending
  | .record members ending => do
    Tree.skipMembers members
    ReadFault.raise ending
  | .absent fault => .error fault
  | .broken _ _ skipping => ReadFault.raise skipping
  | _ => .ok ()

def Tree.skipItems : List Tree → Except ReadFault Unit
  | [] => .ok ()
  | t :: rest => do
    t.skip
    Tree.skipItems rest

def Tree.skipMembers : List (MemberName × Tree) → Except ReadFault Unit
  | [] => .ok ()
  | (.text _, t) :: rest => do
    t.skip
    Tree.skipMembers rest
  | (.broken _ skipping, t) :: rest => do
    ReadFault.raise skipping
    t.skip
    Tree.skipMembers rest

end

mutual

/-- Reads a value whole, before it is known what it should be. Lists and records may be nested to
the given depth. -/
def Tree.readWhole (depth : Nat) : Tree → Except ReadFault Unit
  | .list items ending =>
    match depth with
    | 0 => .error .malformed
    | inner + 1 => do
      Tree.readItems inner items
      ReadFault.raise ending
  | .record members ending =>
    match depth with
    | 0 => .error .malformed
    | inner + 1 => do
      Tree.readMembers inner members
      ReadFault.raise ending
  | .absent fault => .error fault
  | .broken _ reading _ => .error reading
  | _ => .ok ()

def Tree.readItems (depth : Nat) : List Tree → Except ReadFault Unit
  | [] => .ok ()
  | t :: rest => do
    t.readWhole depth
    Tree.readItems depth rest

def Tree.readMembers (depth : Nat) : List (MemberName × Tree) → Except ReadFault Unit
  | [] => .ok ()
  | (.text _, t) :: rest => do
    t.readWhole depth
    Tree.readMembers depth rest
  | (.broken reading _, _) :: _ => .error reading

end

/-- An integer with its size class, if it is beyond sixty-four bits. -/
def describeInteger (n : Int) : String :=
  let digits := "integer `" ++ String.ofList (Number.intDigits n) ++ "`"
  if -(twoTo 63 : Int) ≤ n ∧ n < twoTo 64 then digits
  else if -(twoTo 127 : Int) ≤ n ∧ n < twoTo 127 then digits ++ " as i128"
  else digits ++ " as u128"

/-- What was found, for a complaint, or the fault that stands there instead. -/
def Tree.describe (floats : Binary64.Layout) : Tree → Except ReadFault String
  | .null => .ok "null"
  | .bool b => .ok (if b then "boolean `true`" else "boolean `false`")
  | .integer n => .ok (describeInteger n)
  | .float x => .ok ("floating point `" ++ x.text floats ++ "`")
  | .text s => .ok ("string " ++ Text.quoted s)
  | .list .. => .ok "sequence"
  | .record .. => .ok "map"
  | .absent fault => .error fault
  | .broken _ reading _ => .error reading

end PluginHost
