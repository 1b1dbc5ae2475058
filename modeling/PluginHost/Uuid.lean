/-!
# Identifiers of a connection

A universally unique identifier is thirty-two hexadecimal digits. It is written in five groups and
read with or without them, also in braces or as a uniform resource name.
-/

namespace PluginHost

structure Uuid where
  digits : List (Fin 16)
  count : digits.length = 32
  deriving DecidableEq

namespace Uuid

def zero : Uuid := ⟨List.replicate 32 0, by simp⟩

/-- The value of a hexadecimal digit of either case. -/
def digit? (c : Char) : Option (Fin 16) :=
  if '0' ≤ c ∧ c ≤ '9' then some (Fin.ofNat 16 (c.toNat - '0'.toNat))
  else if 'a' ≤ c ∧ c ≤ 'f' then some (Fin.ofNat 16 (c.toNat - 'a'.toNat + 10))
  else if 'A' ≤ c ∧ c ≤ 'F' then some (Fin.ofNat 16 (c.toNat - 'A'.toNat + 10))
  else none

def digitChar (d : Fin 16) : Char :=
  if d.val < 10 then Char.ofNat ('0'.toNat + d.val) else Char.ofNat ('a'.toNat + (d.val - 10))

/-- Puts a hyphen after eight, twelve, sixteen and twenty characters. -/
def group (cs : List Char) : List Char :=
  cs.take 8 ++ '-' :: (cs.drop 8).take 4 ++ '-' :: (cs.drop 12).take 4 ++ '-' ::
    (cs.drop 16).take 4 ++ '-' :: cs.drop 20

/-- Takes the hyphens out of a grouped identifier; nothing if they stand elsewhere. -/
def ungroup? (cs : List Char) : Option (List Char) :=
  let bare := cs.take 8 ++ (cs.drop 9).take 4 ++ (cs.drop 14).take 4 ++ (cs.drop 19).take 4 ++
    cs.drop 24
  if group bare = cs then some bare else none

def ofDigits? (cs : List Char) : Option Uuid :=
  match cs.mapM digit? with
  | some digits => if h : digits.length = 32 then some ⟨digits, h⟩ else none
  | none => none

/-- The characters of a uniform resource name before the identifier, in lower case. -/
def resourceName : List Char := "urn:uuid:".toList

/-- Reads an identifier in any of its forms, which differ in length. -/
def ofText? (text : String) : Option Uuid :=
  let cs := text.toList
  match cs.length with
  | 32 => ofDigits? cs
  | 36 => (ungroup? cs).bind ofDigits?
  | 38 =>
    if cs.head? = some '\x7b' ∧ cs.getLast? = some '\x7d' then
      (ungroup? (cs.drop 1).dropLast).bind ofDigits?
    else none
  | 45 =>
    if (cs.take 9).map Char.toLower = resourceName then (ungroup? (cs.drop 9)).bind ofDigits?
    else none
  | _ => none

def text (u : Uuid) : String :=
  String.ofList (group (u.digits.map digitChar))

end Uuid

end PluginHost
