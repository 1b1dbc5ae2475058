import PluginHost.WeakLink

/-!
# Links in memory

An object stands at an address, and a link knows it by the address alone. The memory of an object
that nobody holds any more is used again, but not while a link is to it. So one address may stand
for several objects in the course of time.
-/

namespace PluginHost

/-- What is done with objects and with one link to them. -/
inductive LinkStep where
  /-- An object is made at an address. Nothing is made where memory is in use. -/
  | create (holder : String) (address : Nat)
  /-- A holder holds what another one holds. -/
  | share (holder source : String)
  | drop (holder : String)
  | link (holder : String)
  | unlink
  deriving DecidableEq, Repr

/-- Objects in memory, who holds them, and a link. -/
structure LinkedMemory where
  holders : Holders
  /-- The addresses of all objects that were ever made, in the order of their numbers. -/
  addresses : List Nat
  link : WeakLink

namespace LinkedMemory

def start : LinkedMemory := ⟨Holders.none, [], WeakLink.empty⟩

def objectAt? (m : LinkedMemory) (address : Nat) : Option Nat :=
  m.holders.held.things.find? fun object => m.addresses[object]? == some address

def isAliveAt (m : LinkedMemory) (address : Nat) : Bool :=
  (m.objectAt? address).isSome

def isFree (m : LinkedMemory) (address : Nat) : Bool :=
  !m.isAliveAt address && !m.link.isLinkedTo address

def get? (m : LinkedMemory) : Option Nat :=
  (m.link.get? m.isAliveAt).bind m.objectAt?

def isLinkedTo (m : LinkedMemory) (object : Nat) : Bool :=
  m.addresses[object]?.any m.link.isLinkedTo

def state (m : LinkedMemory) : String :=
  m.link.state m.isAliveAt

def setLink (m : LinkedMemory) (target : Option Nat) : Bool × LinkedMemory :=
  let (changed, link) := m.link.set m.isAliveAt (target.bind fun object => m.addresses[object]?)
  (changed, { m with link := link })

/-- What the link is set to by a step, if the step sets it. -/
def request? (m : LinkedMemory) : LinkStep → Option (Option Nat)
  | .link holder => (m.holders.find? holder).map some
  | .unlink => some none
  | _ => none

def afterOther (m : LinkedMemory) : LinkStep → LinkedMemory
  | .create holder address =>
    if m.isFree address then
      { m with holders := m.holders.create holder, addresses := m.addresses ++ [address] }
    else m
  | .share holder source =>
    match m.holders.find? source with
    | some object => { m with holders := m.holders.hold holder object }
    | none => m
  | .drop holder => { m with holders := m.holders.release holder }
  | _ => m

def step (m : LinkedMemory) (s : LinkStep) : LinkedMemory :=
  match m.request? s with
  | some target => (m.setLink target).2
  | none => m.afterOther s

def answer? (m : LinkedMemory) (s : LinkStep) : Option Bool :=
  (m.request? s).map fun target => (m.setLink target).1

def run (m : LinkedMemory) (steps : List LinkStep) : LinkedMemory :=
  steps.foldl step m

/-- What the link is set to by the steps, one after the other. -/
def requests (m : LinkedMemory) : List LinkStep → List (Option Nat)
  | [] => []
  | s :: rest => (m.request? s).toList ++ (m.step s).requests rest

/-- The object to which the link was set last, unless it was set to nothing after that. -/
def lastTarget? (m : LinkedMemory) (steps : List LinkStep) : Option Nat :=
  (m.requests steps).getLast?.getD none

end LinkedMemory

end PluginHost
