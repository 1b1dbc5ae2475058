import PluginHost.Binary64.Rounding
import PluginHost.Data.Tree

/-!
# Decoding

Decoders go through a tree in the order of the text and stop at the first thing that is wrong.
A structure is given by its members in any order, or by a list of its fields in their order.
-/

namespace PluginHost

inductive Complaint where
  | invalidType (found expected : String)
  | invalidValue (found expected : String)
  | unknownVariant (name : String) (known : List String)
  | missingField (name : String)
  | duplicateField (name : String)
  | invalidLength (length : Nat) (expected : String)
  | stated (message : String)
  deriving DecidableEq, Repr

def oneOf (names : List String) : String :=
  let quoted := names.map fun name => "`" ++ name ++ "`"
  match quoted with
  | [] => "there are no variants"
  | [only] => "expected " ++ only
  | [first, second] => "expected " ++ first ++ " or " ++ second
  | _ => "expected one of " ++ String.intercalate ", " quoted

def Complaint.message : Complaint → String
  | .invalidType found expected => "invalid type: " ++ found ++ ", expected " ++ expected
  | .invalidValue found expected => "invalid value: " ++ found ++ ", expected " ++ expected
  | .unknownVariant name known => "unknown variant `" ++ name ++ "`, " ++ oneOf known
  | .missingField name => "missing field `" ++ name ++ "`"
  | .duplicateField name => "duplicate field `" ++ name ++ "`"
  | .invalidLength length expected =>
    "invalid length " ++ toString length ++ ", expected " ++ expected
  | .stated message => message

inductive DecodeError where
  | unreadable (fault : ReadFault)
  | complaint (complaint : Complaint)
  deriving DecidableEq, Repr

/-- The wording of the error. A fault of the text is not described further than by the given
words. -/
def DecodeError.message (unreadable : String) : DecodeError → String
  | .unreadable _ => unreadable
  | .complaint c => c.message

abbrev Decoded := Except DecodeError

/-- What to say of elements that a list of fields has beyond them. -/
inductive Surplus where
  | fault
  | tooLong
  | ignored
  deriving DecidableEq, Repr

/-- How a file format is decoded where formats differ. -/
structure Dialect where
  floats : Binary64.Layout
  surplus : Surplus

namespace Decoded

def ofRead {α : Type} (result : Except ReadFault α) : Decoded α :=
  result.mapError .unreadable

def complain {α : Type} (complaint : Complaint) : Decoded α :=
  .error (.complaint complaint)

def mismatch {α : Type} (d : Dialect) (expected : String) (t : Tree) : Decoded α := do
  let found ← ofRead (t.describe d.floats)
  complain (.invalidType found expected)

end Decoded

namespace Decode

open Decoded

def bool (d : Dialect) : Tree → Decoded Bool
  | .bool b => .ok b
  | t => mismatch d "a boolean" t

/-- A text; `expected` says what it stands for. -/
def textAs (d : Dialect) (expected : String) : Tree → Decoded String
  | .text s => .ok s
  | t => mismatch d expected t

def text (d : Dialect) (t : Tree) : Decoded String :=
  textAs d "a string" t

def path (d : Dialect) (t : Tree) : Decoded String :=
  textAs d "path string" t

/-- An integer from `least` to `greatest`; `type` names the range. -/
def integer (d : Dialect) (type : String) (least greatest : Int) : Tree → Decoded Int
  | .integer n =>
    if least ≤ n ∧ n ≤ greatest then .ok n
    else complain (.invalidValue (describeInteger n) type)
  | t => mismatch d type t

/-- A number of any kind, as the nearest double. -/
def double (d : Dialect) : Tree → Decoded Binary64
  | .integer n => .ok (Binary64.ofInt n)
  | .float x => .ok x
  | t => mismatch d "f64" t

def optional {α : Type} (decode : Tree → Decoded α) : Tree → Decoded (Option α)
  | .null => .ok none
  | t => (decode t).map some

def items {α : Type} (decode : Tree → Decoded α) : List Tree → Decoded (List α)
  | [] => .ok []
  | t :: rest => do
    let x ← decode t
    let xs ← items decode rest
    return x :: xs

def list {α : Type} (d : Dialect) (decode : Tree → Decoded α) : Tree → Decoded (List α)
  | .list ts ending => do
    let xs ← items decode ts
    ofRead (ReadFault.raise ending)
    return xs
  | t => mismatch d "a sequence" t

def members {α : Type} (decode : Tree → Decoded α) :
    List (MemberName × Tree) → Decoded (List (String × α))
  | [] => .ok []
  | (.broken reading _, _) :: _ => .error (.unreadable reading)
  | (.text name, t) :: rest => do
    let x ← decode t
    let xs ← members decode rest
    return (name, x) :: xs

/-- A record with arbitrary names. -/
def entries {α : Type} (d : Dialect) (decode : Tree → Decoded α) :
    Tree → Decoded (List (String × α))
  | .record ms ending => do
    let xs ← members decode ms
    ofRead (ReadFault.raise ending)
    return xs
  | t => mismatch d "a map" t

/-- A name out of a list of names. -/
def variantName {α : Type} (find : String → Option α) (known : List String) (name : String) :
    Decoded α :=
  match find name with
  | some x => .ok x
  | none => complain (.unknownVariant name known)

/-- A name where only a name may stand. -/
def identifier {α : Type} (d : Dialect) (find : String → Option α) (known : List String) :
    Tree → Decoded α
  | .text name => variantName find known name
  | t => mismatch d "variant identifier" t

/-- A name, alone or as the only member of a record, whose value is nothing. -/
def variant {α : Type} (d : Dialect) (find : String → Option α) (known : List String) :
    Tree → Decoded α
  | .text name => variantName find known name
  | .record [] (some fault) => .error (.unreadable fault)
  | .record ((.broken reading _, _) :: _) _ => .error (.unreadable reading)
  | .record ((.text name, value) :: rest) ending => do
    let x ← variantName find known name
    match value with
    | .null => pure ()
    | t => mismatch d "unit" t
    match rest, ending with
    | [], none => return x
    | [], some fault => .error (.unreadable fault)
    | _ :: _, _ => .error (.unreadable .malformed)
  | .absent fault => .error (.unreadable fault)
  | .broken true reading _ => .error (.unreadable reading)
  | _ => .error (.unreadable .malformed)

/-! ## Structures -/

/-- A field of a structure and the test its value has to pass. -/
structure FieldRule where
  name : String
  test : Tree → Decoded Unit

def field {α : Type} (name : String) (decode : Tree → Decoded α) : FieldRule :=
  ⟨name, fun t => (decode t).map fun _ => ()⟩

/-- The fields that were given, and what to say of one that was not. -/
structure Fields where
  given : List (String × Tree)
  missing : String → Complaint

/-- Goes through the members of a record. Each known one has to pass its test and to be the first
of its name; the others are skipped. -/
def givenMembers (rules : List FieldRule) :
    List (String × Tree) → List (MemberName × Tree) → Decoded (List (String × Tree))
  | given, [] => .ok given
  | _, (.broken reading _, _) :: _ => .error (.unreadable reading)
  | given, (.text name, t) :: rest =>
    match rules.find? fun rule => rule.name == name with
    | none => do
      ofRead t.skip
      givenMembers rules given rest
    | some rule =>
      if (given.lookup name).isSome then complain (.duplicateField name)
      else do
        rule.test t
        givenMembers rules (given ++ [(name, t)]) rest

/-- Goes through a list of fields in their order. -/
def givenItems (surplus : Surplus) (total : Nat) (ending : Option ReadFault) :
    List FieldRule → List Tree → Decoded (List (String × Tree))
  | _, [] => do
    ofRead (ReadFault.raise ending)
    return []
  | [], _ :: _ =>
    match surplus with
    | .fault => .error (.unreadable .malformed)
    | .tooLong => complain (.invalidLength total "fewer elements in array")
    | .ignored => return []
  | rule :: rules, t :: rest => do
    rule.test t
    let given ← givenItems surplus total ending rules rest
    return (rule.name, t) :: given

def structureFields (d : Dialect) (name : String) (rules : List FieldRule) : Tree → Decoded Fields
  | .record ms ending => do
    let given ← givenMembers rules [] ms
    ofRead (ReadFault.raise ending)
    return ⟨given, .missingField⟩
  | .list ts ending => do
    let given ← givenItems d.surplus ts.length ending rules ts
    let expected := "struct " ++ name ++ " with " ++ toString rules.length ++
      if rules.length = 1 then " element" else " elements"
    let position (field : String) := rules.findIdx fun rule => rule.name == field
    return ⟨given, fun field => .invalidLength (position field) expected⟩
  | t => mismatch d ("struct " ++ name) t

namespace Fields

def required {α : Type} (f : Fields) (name : String) (decode : Tree → Decoded α) : Decoded α :=
  match f.given.lookup name with
  | some t => decode t
  | none => complain (f.missing name)

/-- The value of a field, or another value if it is not given. -/
def withDefault {α : Type} (f : Fields) (name : String) (default : α) (decode : Tree → Decoded α) :
    Decoded α :=
  match f.given.lookup name with
  | some t => decode t
  | none => .ok default

end Fields

end Decode

end PluginHost
