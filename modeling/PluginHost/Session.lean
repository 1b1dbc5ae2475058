import PluginHost.Host

/-!
# Sessions

A session is a loader at work on the files of a machine. The plugins that live inside the process
hear of each other: what one of them was asked, the others have been asked as well. A plugin that
comes out of a mapped library knows of itself alone, and what it goes through cannot be seen.
-/

namespace PluginHost

/-- A loader and the files it works on. -/
structure Session (σ : Type) where
  loader : PluginLoader (Host σ)
  files : FileSystem
  /-- What the libraries hold lives inside the process. -/
  inProcess : Bool

namespace Session

variable {σ : Type}

def isInside (session : Session σ) (p : EditorPlugin) : Bool :=
  session.inProcess || p.residency == .builtin

/-- The instances inside the process, with their numbers. -/
def inside (session : Session σ) (h : Host σ) : List (EditorPlugin × Nat) :=
  h.instances.zipIdx.filter fun (p, _) => session.isInside p

/-- What the others went through, as far as an instance hears of it. -/
def hearsay (session : Session σ) (h : Host σ) (number : Nat) (p : EditorPlugin) : History :=
  if session.isInside p then
    ((session.inside h).filter fun other => other.2 != number).flatMap fun other => other.1.history
  else []

/-- Lets an instance do something in the light of all it knows, and adds what it went through to
its own history. -/
def act {α : Type} (session : Session σ) (h : Host σ) (number : Nat) (p : EditorPlugin)
    (action : History → α × History) : α × Host σ :=
  let heard := session.hearsay h number p
  let (result, after) := action (heard ++ p.history)
  (result, h.remember number (after.drop heard.length))

/-- The number of calls that were run by instances inside the process. -/
def callCount (session : Session σ) (h : Host σ) : Nat :=
  (session.inside h).foldl (fun count (p, _) => count + p.history.invocations.length) 0

/-- The links that instances inside the process were told of since a host was as it was before: the
names of the descriptions, and whether they kept an instance then. -/
def newLinks (session : Session σ) (before after : Host σ) : List (String × Bool) :=
  (session.inside after).flatMap fun (p, number) =>
    let known := before.instances[number]?.elim 0 fun old => old.history.length
    (p.history.drop known).filterMap fun
      | .linked _ name cached _ => some (name, cached)
      | _ => none

end Session

end PluginHost
