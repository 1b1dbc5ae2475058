import PluginHost.Binary64.Basic
import PluginHost.Named

/-!
# Data

The values that data files hold, whatever the file format.
-/

namespace PluginHost

/-- A value of a data file. The members of a record stand in the order in which they are written. -/
inductive Datum where
  | null
  | bool (value : Bool)
  | integer (value : Int)
  | float (value : Binary64)
  | text (value : String)
  | list (items : List Datum)
  | record (members : List (String × Datum))
  deriving Repr, Inhabited

namespace Datum

/-- The members in the order of their names. Of several with one name the last counts. -/
def sortedMembers (members : List (String × Datum)) : List (String × Datum) :=
  members.foldl (fun sorted (name, d) => Named.insert name d sorted) []

/-- The same value with the members of a record in the order of their names. -/
def sorted : Datum → Datum
  | .record members => .record (sortedMembers members)
  | d => d

/-! ## Looking into data -/

def bool? : Datum → Option Bool
  | .bool b => some b
  | _ => none

def int? : Datum → Option Int
  | .integer n => some n
  | _ => none

def nat? : Datum → Option Nat
  | .integer (.ofNat n) => some n
  | _ => none

def text? : Datum → Option String
  | .text s => some s
  | _ => none

def items? : Datum → Option (List Datum)
  | .list items => some items
  | _ => none

def members? : Datum → Option (List (String × Datum))
  | .record members => some members
  | _ => none

/-- The elements of a list, each read in the same way. -/
def itemsAs? {α : Type} (read : Datum → Option α) (d : Datum) : Option (List α) := do
  (← d.items?).mapM read

/-- The names and members of a record, each member read in the same way. -/
def membersAs? {α : Type} (read : Datum → Option α) (d : Datum) : Option (List (String × α)) := do
  (← d.members?).mapM fun (name, x) => return (name, ← read x)

/-- The last member of a record with this name. -/
def member? (d : Datum) (name : String) : Option Datum :=
  d.members?.bind fun members => members.reverse.lookup name

/-- The member of this name, unless it is nothing. -/
def given? (d : Datum) (name : String) : Option Datum :=
  match d.member? name with
  | some .null => none
  | other => other

def get? {α : Type} (d : Datum) (name : String) (read : Datum → Option α) : Option α :=
  (d.member? name).bind read

/-- Reads the member of this name; without it the value is the given one. -/
def getOr? {α : Type} (d : Datum) (name : String) (otherwise : α) (read : Datum → Option α) :
    Option α :=
  match d.given? name with
  | some x => read x
  | none => some otherwise

def maybe? {α : Type} (d : Datum) (name : String) (read : Datum → Option α) :
    Option (Option α) :=
  match d.given? name with
  | some x => (read x).map some
  | none => some none

end Datum

end PluginHost
