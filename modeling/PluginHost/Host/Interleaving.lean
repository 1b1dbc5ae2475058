import PluginHost.Host.RecordLoading

/-!
# Loads that run at the same time

Several loads through one description may be under way at once, on several threads or one inside
another. A load looks at what the description keeps, lets the loader work, links the instance it
is given, and settles which instance the description keeps. Only the look and the settling hold the
description's lock; between two moves of a load anything may happen.
-/

namespace PluginHost

inductive LoadStage where
  | begun
  /-- The description kept nothing, and the loader is at work. -/
  | loading
  | received (p : EditorPlugin)
  /-- The instance is linked to the description, and has been told so. -/
  | linked (own : Nat)
  /-- The description kept an instance from the beginning. -/
  | found (kept : Nat)
  | failed (cause : HostError)
  /-- An instance was made, and this or another one is kept. -/
  | settled (own kept : Nat)

/-- The result of a load that has come to its end. -/
def LoadStage.result? : LoadStage → Option (Except HostError Nat)
  | .found kept => some (.ok kept)
  | .settled _ kept => some (.ok kept)
  | .failed e => some (.error e)
  | _ => none

/-- The instance that a load has made and linked. -/
def LoadStage.own? : LoadStage → Option Nat
  | .linked own => some own
  | .settled own _ => some own
  | _ => none

def LoadStage.ofLoader : Except HostError EditorPlugin → LoadStage
  | .ok p => .received p
  | .error e => .failed e

/-- The descriptions that a plugin was told of, by number and name. -/
def History.links (h : History) : List (Nat × String) :=
  h.filterMap fun
    | .linked record name _ _ => some (record, name)
    | _ => none

namespace Host

variable {σ : Type}

def look (h : Host σ) (record : Record) : LoadStage :=
  match h.cached? record.id with
  | some number => .found number
  | none =>
    match record.info.plugin with
    | none => .failed (noLibrary record.info)
    | some _ => .loading

def linkNew (h : Host σ) (record : Record) (p : EditorPlugin) : Nat × Host σ :=
  h.adopt (p.setRecord (fun _ => true) (some (h.linkedAs record)))

theorem finishLoad_eq (h : Host σ) (record : Record) (p : EditorPlugin) :
    h.finishLoad record p =
      (h.linkNew record p).2.settle record.id (h.linkNew record p).1 := rfl

end Host

/-- What the loader may give for a description: what it gives on some machine in some state. -/
def LoaderGives (record : Record) (result : Except HostError EditorPlugin) : Prop :=
  ∃ (τ : Type) (loader : PluginLoader τ) (fs : FileSystem) (library : String)
    (owner : Option Nat) (state : τ), record.info.plugin = some library ∧
    (loader.loadFile fs library (some record.info.service) ⟨owner, none⟩ state).result = result

/-- One move of a load. What the loader does to the machine, what the factory does, and what the
plugin does when it is told of its link may be anything, and is not part of the moves of the load
itself. -/
inductive LoadMove {σ : Type} (record : Record) (h : Host σ) :
    LoadStage → LoadStage → Host σ → Prop where
  | look : LoadMove record h .begun (h.look record) h
  | receive (result) (hr : LoaderGives record result) :
      LoadMove record h .loading (.ofLoader result) h
  | link (p) :
      LoadMove record h (.received p) (.linked (h.linkNew record p).1) (h.linkNew record p).2
  | settle (own) :
      LoadMove record h (.linked own) (.settled own (h.settle record.id own).1)
        (h.settle record.id own).2

/-- A host and the loads through one of its descriptions, in the order in which they were begun. -/
structure Loads (σ : Type) where
  host : Host σ
  calls : List LoadStage

namespace Loads

variable {σ : Type}

def kept? (s : Loads σ) (record : Record) : Option Nat :=
  s.host.cached? record.id

def result? (s : Loads σ) (i : Nat) : Option (Except HostError Nat) :=
  s.calls[i]?.bind LoadStage.result?

def own? (s : Loads σ) (i : Nat) : Option Nat :=
  s.calls[i]?.bind LoadStage.own?

def advance (s : Loads σ) (i : Nat) (stage : LoadStage) (host : Host σ) : Loads σ :=
  ⟨host, s.calls.set i stage⟩

/-- What happens elsewhere leaves alone what a description keeps, and the instances that loads
through it have made: nobody else holds such an instance in a way that would let it be linked. -/
structure Spares (record : Record) (s : Loads σ) (host : Host σ) : Prop where
  kept_eq : host.cached? record.id = s.kept? record
  own_eq : ∀ i own p, s.own? i = some own → s.host.instances[own]? = some p →
    ∃ q, host.instances[own]? = some q ∧ q.plugin = p.plugin ∧ q.link = p.link ∧
      q.history.links = p.history.links

/-- One move of any of the loads, and which one makes it. A load is begun, and things happen
elsewhere, at any time. -/
inductive Move (record : Record) (s : Loads σ) : Option Nat → Loads σ → Prop where
  | enter : Move record s none ⟨s.host, s.calls ++ [.begun]⟩
  | own (i stage next host) (hi : s.calls[i]? = some stage)
      (hm : LoadMove record s.host stage next host) :
      Move record s (some i) (s.advance i next host)
  | elsewhere (host) (hs : s.Spares record host) : Move record s none ⟨host, s.calls⟩

inductive Run (record : Record) : Loads σ → Loads σ → Prop where
  | refl (s) : Run record s s
  | snoc {s t u mover} (h : Run record s t) (hm : Move record t mover u) : Run record s u

end Loads

end PluginHost
