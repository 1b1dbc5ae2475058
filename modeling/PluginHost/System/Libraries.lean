import PluginHost.Host.RecordLoading
import PluginHost.Loader.Load

/-!
# Libraries of a machine

The operating system maps the library in a file once and counts the references to it. A name with
a slash is the path of a file, and two paths of one file are one library; any other name is searched
for among the libraries of the system, and no name at all is the program itself.
-/

namespace PluginHost

inductive Library where
  /-- An editor plugin: what its factory gives. -/
  | editor (outcome : FactoryOutcome)
  | withoutFactory

inductive LibraryKey where
  | file (place : Place)
  | system (name : String)
  deriving DecidableEq

/-- The libraries of a machine, and the references to mapped ones, each as often as it was taken
and not given back. -/
structure Libraries where
  known : List (LibraryKey × Library)
  references : List LibraryKey

namespace Libraries

def ofKnown (known : List (LibraryKey × Library)) : Libraries := ⟨known, []⟩

/-- What stands for the system's own words, which differ from machine to machine. -/
def diagnostic : String := "<os>"

/-- A name as the operating system gets it, without the NUL character that may end it. -/
def plainName (name : String) : String :=
  if name.toList.getLast? = some '\x00' then String.ofList name.toList.dropLast else name

def key? (fs : FileSystem) (name : String) : Option LibraryKey :=
  let plain := plainName name
  if plain.toList.contains '/' then (fs.resolve plain).toOption.map .file
  else some (.system plain)

def find? (libraries : Libraries) (fs : FileSystem) (name : String) : Option Library :=
  (key? fs name).bind fun key => libraries.known.lookup key

def isMapped (libraries : Libraries) (key : LibraryKey) : Bool :=
  libraries.references.contains key

def retain (libraries : Libraries) (key : LibraryKey) : Libraries :=
  { libraries with references := key :: libraries.references }

def release (libraries : Libraries) (key : LibraryKey) : Libraries :=
  { libraries with references := libraries.references.erase key }

def probe (fs : FileSystem) (name : String) (libraries : Libraries) : Bool × Libraries :=
  match key? fs name with
  | some key =>
    if libraries.isMapped key then (true, libraries.retain key) else (false, libraries)
  | none => (false, libraries)

def isReadable (fs : FileSystem) : LibraryKey → Bool
  | .file place => fs.permits .read place
  | .system _ => true

def map (fs : FileSystem) (name : String) (libraries : Libraries) :
    Except String Unit × Libraries :=
  match key? fs name with
  | some key =>
    if (libraries.known.lookup key).isSome && isReadable fs key then
      (.ok (), libraries.retain key)
    else (.error diagnostic, libraries)
  | none => (.error diagnostic, libraries)

def instantiate (fs : FileSystem) (name : String) (libraries : Libraries) :
    Except String FactoryOutcome × Libraries :=
  match libraries.find? fs name with
  | some (.editor outcome) => (.ok outcome, libraries)
  | _ => (.error diagnostic, libraries)

def backend (fs : FileSystem) : Backend Libraries where
  probe := probe fs
  map := map fs
  instantiate := instantiate fs
  release name libraries :=
    match key? fs name with
    | some key => libraries.release key
    | none => libraries
  keep _ libraries := libraries

end Libraries

/-! ## Hosts on a machine -/

/-- The same way with libraries where their state is a part of a larger one. -/
def Backend.within {σ τ : Type} (backend : Backend σ) (get : τ → σ) (set : σ → τ → τ) :
    Backend τ where
  probe path state :=
    let (resident, after) := backend.probe path (get state)
    (resident, set after state)
  map path state :=
    let (result, after) := backend.map path (get state)
    (result, set after state)
  instantiate path state :=
    let (result, after) := backend.instantiate path (get state)
    (result, set after state)
  release path state := set (backend.release path (get state)) state
  keep path state := set (backend.keep path (get state)) state

def Host.backend {σ : Type} (backend : Backend σ) : Backend (Host σ) :=
  backend.within Host.machine fun after h => { h with machine := after }

def Libraries.loader (directory : String) (fs : FileSystem) : PluginLoader (Host Libraries) :=
  ⟨directory, Host.backend (Libraries.backend fs)⟩

end PluginHost
