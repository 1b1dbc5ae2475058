import PluginHost.Files.FileSystem
import PluginHost.Info.PluginInfo

/-!
# Catalogs

A catalog is the plugin descriptions a host knows, in the order in which they were added. No two
have the same name or the same service. A directory of descriptions is read in the order of its
file names; a file that cannot be used, or that repeats an earlier name or service, is passed over.
-/

namespace PluginHost

/-- A description that a host knows, under a number of its own. -/
structure Record where
  id : Nat
  info : PluginInfo
  deriving DecidableEq

/-- Two descriptions that cannot both be in a catalog. -/
def PluginInfo.clashes (i j : PluginInfo) : Bool :=
  i.name == j.name || i.service == j.service

/-- Descriptions whose names and services are distinct. -/
structure Catalog where
  records : List Record
  distinct : records.Pairwise fun r s => r.info.clashes s.info = false

namespace Catalog

def empty : Catalog := ⟨[], .nil⟩

def alreadyRegistered (added existing : PluginInfo) : HostError :=
  .failed ("plugin " ++ added.name ++ " (" ++ added.service ++ ") is already registered as " ++
    existing.name ++ " (" ++ existing.service ++ ")")

def add (c : Catalog) (r : Record) : Except HostError Catalog :=
  match h : c.records.find? fun s => s.info.clashes r.info with
  | some s => .error (alreadyRegistered r.info s.info)
  | none =>
    .ok ⟨c.records ++ [r], by
      rw [List.find?_eq_none] at h
      simp only [List.pairwise_append, List.pairwise_cons, List.not_mem_nil, false_implies,
        implies_true, List.Pairwise.nil, and_self, List.mem_cons, or_false, forall_eq, true_and]
      exact ⟨c.distinct, fun s hs => by simpa using h s hs⟩⟩

def findByName? (c : Catalog) (name : String) : Option Record :=
  c.records.find? fun r => r.info.name == name

/-- The description of the plugin that handles a service type: the one whose service it is, or
else the first that has it as an alias. -/
def findByService? (c : Catalog) (serviceType : String) : Option Record :=
  (c.records.find? fun r => r.info.service == serviceType) <|>
    c.records.find? fun r => r.info.supports serviceType

/-- Adds descriptions that can be used, in their order, numbering the added ones upwards. -/
def addUsable (c : Catalog) (next : Nat) : List PluginInfo → Catalog
  | [] => c
  | i :: rest =>
    match c.add ⟨next, i⟩ with
    | .ok grown => grown.addUsable (next + 1) rest
    | .error _ => c.addUsable next rest

def descriptionSuffix : String := "toml"

def descriptionNames (names : List String) : List String :=
  (names.filter fun name => Path.suffix? name == some descriptionSuffix).mergeSort
    fun a b => decide (a ≤ b)

/-- The description in a file, unless the file is waited for for ever. -/
def readInfo (fs : FileSystem) (path : String) : Option (Except HostError PluginInfo) :=
  (fs.readText path).map fun
    | .ok text => PluginInfo.parse text (some path)
    | .error fault => .error (.io fault.message)

/-- The descriptions that can be used among files of a directory, which are read one by one. -/
def usableInfos (fs : FileSystem) (directory : String) : List String → Option (List PluginInfo)
  | [] => some []
  | name :: rest => do
    let i ← readInfo fs (Path.join directory name)
    let more ← usableInfos fs directory rest
    return i.toOption.toList ++ more

/-- The catalog of the descriptions in a directory; it is empty if there is no directory. There is
no result if one of the files is waited for for ever. -/
def scan (fs : FileSystem) (next : Nat) (directory : String) : Option (Except HostError Catalog) :=
  match fs.list directory with
  | .ok names =>
    (usableInfos fs directory (descriptionNames names)).map fun infos =>
      .ok (empty.addUsable next infos)
  | .error .missing => some (.ok empty)
  | .error fault => some (.error (.io fault.message))

end Catalog

end PluginHost
