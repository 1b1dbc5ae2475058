import PluginHost.Plugin
import PluginHost.Text.Pieces
import PluginHost.Text.Utf8

/-!
# Plugin factories

A library exports one factory. It gives an instance, or none and possibly a reason, which it leaves
in a slot that the host offers. There a reason is a text in memory that ends at its first byte 0.
-/

namespace PluginHost

/-! ## Texts in memory -/

/-- A text in memory with a byte 0 at its end; a text with such a byte inside is none. -/
def terminated? (text : String) : Option (List UInt8) :=
  if 0 ∈ Text.bytes text then none else some (Text.bytes text ++ [0])

/-- The text that stands in memory up to the first byte 0. -/
def readTerminated (memory : List UInt8) : String :=
  Text.decode (memory.takeWhile (· ≠ 0))

/-! ## Reasons -/

/-- The slot for a reason. A host may offer none. -/
inductive ReasonSlot where
  | missing
  | empty
  | filled (memory : List UInt8)

/-- Leaves a reason in a slot. The characters that would end it early become spaces, and an empty
reason is not left at all. -/
def ReasonSlot.set (slot : ReasonSlot) (reason : String) : ReasonSlot :=
  match slot with
  | .missing => .missing
  | offered =>
    if reason.isEmpty then offered
    else .filled ((terminated? (Text.replaceAll "\x00" " " reason)).getD [0])

/-- The reason in a slot; an empty one is none. -/
def ReasonSlot.take? : ReasonSlot → Option String
  | .filled memory =>
    let reason := readTerminated memory
    if reason.isEmpty then none else some reason
  | _ => none

/-! ## Factories -/

/-- What a factory gives: an instance, or the reason why there is none, if it has one. -/
abbrev FactoryOutcome := Except (Option String) Plugin

/-- The factory that a library exports for a constructor: the instance it gives, and the slot as it
leaves it. -/
def exportedEntry (constructor : Except String Plugin) (slot : ReasonSlot) :
    Option Plugin × ReasonSlot :=
  match constructor with
  | .ok plugin => (some plugin, slot)
  | .error reason => (none, slot.set reason)

def invokeFactory (entry : ReasonSlot → Option Plugin × ReasonSlot) : FactoryOutcome :=
  match entry .empty with
  | (some plugin, _) => .ok plugin
  | (none, slot) => .error slot.take?

/-- What running the exported factory of a constructor gives. -/
def exportFactory (constructor : Except String Plugin) : FactoryOutcome :=
  invokeFactory (exportedEntry constructor)

end PluginHost
