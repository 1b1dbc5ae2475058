import PluginHost.Script.Modules
import PluginHost.Value.Portable

/-!
# Reading scripts

Scripts are written as data. What a script does not say has a default.
-/

namespace PluginHost

/-- A list of types; without it there are none. -/
def TypeTag.listIn? (d : Datum) (name : String) : Option (List TypeTag) :=
  d.getOr? name [] (Datum.itemsAs? fun x => x.text?.bind TypeTag.ofName?)

/-- A signature, and which of its two tables are its own. -/
def Signature.ofScript? (d : Datum) : Option Signature := do
  let owned ← d.getOr? "own" "none" Datum.text?
  return ⟨← TypeTag.listIn? d "in", ← TypeTag.listIn? d "out", owned == "in" || owned == "both",
    owned == "out" || owned == "both"⟩

def TextMap.ofScript? (d : Datum) : Option TextMap :=
  (d.membersAs? Datum.text?).map TextMap.ofList

/-- A connection of which anything may be left out. -/
def Connection.ofScript? (d : Datum) : Option Connection := do
  let uuid := ((← d.maybe? "uuid" Datum.text?).bind Uuid.ofText?).getD Uuid.zero
  return ⟨uuid, ← d.getOr? "id" "" Datum.text?, ← d.getOr? "service_type" "" Datum.text?,
    ← d.getOr? "data" ∅ TextMap.ofScript?, ← d.getOr? "secrets" ∅ TextMap.ofScript?⟩

namespace Script

def slotAs? {α : Type} (read : Datum → Option α) (d : Datum) : Option (Nat × α) := do
  match ← d.items? with
  | [slot, x] => return (← slot.nat?, ← read x)
  | _ => none

def conditionsOf? (d : Datum) : Option (List (Nat × String)) := do
  (← d.membersAs? Datum.text?).mapM fun (position, text) => return (← position.toNat?, text)

def failureOf? : Option Datum → Option (Option (Option String))
  | none => some none
  | some .null => some (some none)
  | some x => x.text?.map fun reason => some (some reason)

def Rule.ofDatum? (d : Datum) : Option Rule := do
  return ⟨← d.getOr? "when" [] conditionsOf?,
    ← d.getOr? "set" [] (Datum.itemsAs? (slotAs? CallValue.ofPortable?)),
    ← d.getOr? "copy" [] (Datum.itemsAs? (slotAs? Datum.nat?)),
    ← d.getOr? "fmt" [] (Datum.itemsAs? (slotAs? Datum.text?)),
    ← failureOf? (d.member? "fail")⟩

def answerOf? : Datum → Option (Option Signature)
  | .null => some none
  | d => (Signature.ofScript? d).map some

def CallScript.ofDatum? (d : Datum) : Option CallScript := do
  return ⟨← d.getOr? "signatures" [] (Datum.itemsAs? answerOf?),
    ← d.getOr? "rules" [] (Datum.itemsAs? Rule.ofDatum?)⟩

def editorOf? (d : Datum) : Option (Except String EditorScript) := do
  match ← d.maybe? "err" Datum.text? with
  | some reason => return .error reason
  | none =>
    return .ok ⟨← d.getOr? "key" "remote" Datum.text?,
      ← d.getOr? "default" "vpn.example.com" Datum.text?, ← d.maybe? "update_err" Datum.text?⟩

/-- What an optional operation does: it fails with a reason, or it succeeds with what is read. -/
def Response.ofDatum? {α : Type} (success : Datum → Option α) (d : Datum) :
    Option (Response α) := do
  match ← d.maybe? "err" Datum.text? with
  | some reason => return .failure reason
  | none => return .success (← success d)

def PluginScript.ofDatum? (d : Datum) : Option PluginScript := do
  let text (name otherwise : String) := d.getOr? name otherwise Datum.text?
  return ⟨← text "name" "fake", ← text "description" "Fake VPN editor",
    ← text "service" "org.example.vpn", ⟨UInt32.ofNat (← d.getOr? "capabilities" 0 Datum.nat?)⟩,
    ← d.maybe? "calls" (Datum.membersAs? CallScript.ofDatum?),
    ← (d.given? "editor" |>.getD (.record [])) |> editorOf?,
    ← d.getOr? "import" .missing (Response.ofDatum? fun x => x.get? "ok" Connection.ofScript?),
    ← d.getOr? "export" .missing (Response.ofDatum? fun _ => some ()),
    ← d.maybe? "suggested" Datum.text?⟩

/-- What a constructor gives: it fails with a reason, or it makes the plugin of a script. -/
def productOf? (failure : Option String) (plugin : Option Datum) :
    Option (Except String PluginScript) :=
  match failure with
  | some reason => some (.error reason)
  | none => (PluginScript.ofDatum? (plugin.getD (.record []))).map .ok

def ModuleScript.ofDatum? (d : Datum) : Option ModuleScript := do
  let failure ← d.maybe? "factory_error" Datum.text?
  return ⟨← d.getOr? "resident" false Datum.bool?, ← d.maybe? "open_error" Datum.text?,
    ← d.maybe? "symbol_error" Datum.text?, ← productOf? failure (d.given? "plugin"),
    ← d.maybe? "reenter" Datum.text?⟩

def outcomeOf? (d : Datum) : Option FactoryOutcome := do
  let product ← productOf? (← d.maybe? "factory_error" Datum.text?) d
  return exportFactory (product.map PluginScript.plugin)

def PolicyScript.ofDatum? (d : Datum) : Option PolicyScript := do
  return ⟨← d.maybe? "deny" Datum.text?, ← d.maybe? "max_len" Datum.nat?,
    ← d.maybe? "suffix" Datum.text?⟩

end Script

end PluginHost
