import PluginHost.Named
import PluginHost.Text.Quoted

/-!
# Weak links

A link names an object without keeping it alive. Objects are known by numbers that are never used
twice, and an object lives as long as somebody holds it.
-/

namespace PluginHost

structure WeakLink where
  target : Option Nat
  deriving DecidableEq, Repr

namespace WeakLink

def empty : WeakLink := ⟨none⟩

/-- The linked object, if it is alive. -/
def get? (link : WeakLink) (alive : Nat → Bool) : Option Nat :=
  link.target.filter alive

def isLinkedTo (link : WeakLink) (object : Nat) : Bool :=
  link.target == some object

/-- Links to an object or to none. The answer tells whether the linked object changed. -/
def set (link : WeakLink) (alive : Nat → Bool) : Option Nat → Bool × WeakLink
  | some object => if link.isLinkedTo object then (false, link) else (true, ⟨some object⟩)
  | none => ((link.get? alive).isSome, empty)

theorem isLinkedTo_set (link : WeakLink) (alive : Nat → Bool) (object : Nat) :
    (link.set alive (some object)).2.isLinkedTo object = true := by
  by_cases hlinked : link.isLinkedTo object = true
  · simp only [set, if_pos hlinked]
    exact hlinked
  · simp only [set, if_neg hlinked]
    simp [isLinkedTo]

theorem get?_of_isLinkedTo {link : WeakLink} {alive : Nat → Bool} {object : Nat}
    (hlinked : link.isLinkedTo object = true) (halive : alive object = true) :
    link.get? alive = some object := by
  simp only [isLinkedTo, beq_iff_eq] at hlinked
  simp [get?, hlinked, Option.filter_some, halive]

def state (link : WeakLink) (alive : Nat → Bool) : String :=
  match link.target with
  | none => "empty"
  | some object => if alive object then "linked" else "cleared"

def description (link : WeakLink) (alive : Nat → Bool) : String :=
  Text.described "WeakLink" [("state", Text.quoted (link.state alive))]

end WeakLink

/-- Who holds which object. Every holder holds one object, and objects are numbered in the order
in which they are made. -/
structure Holders where
  next : Nat
  held : Named Nat
  deriving DecidableEq, Repr

namespace Holders

def none : Holders := ⟨0, []⟩

def isAlive (h : Holders) (object : Nat) : Bool :=
  h.held.any fun entry => entry.2 == object

def find? (h : Holders) (holder : String) : Option Nat :=
  h.held.lookup holder

def release (h : Holders) (holder : String) : Holders :=
  { h with held := h.held.remove holder }

/-- Lets a holder hold an object instead of what it held. -/
def hold (h : Holders) (holder : String) (object : Nat) : Holders :=
  { h with held := h.held.put holder object }

/-- Makes an object for a holder. -/
def create (h : Holders) (holder : String) : Holders :=
  { h.hold holder h.next with next := h.next + 1 }

theorem isAlive_iff (h : Holders) (object : Nat) :
    h.isAlive object = true ↔ object ∈ h.held.things := by
  simp [isAlive, Named.things]

end Holders

end PluginHost
