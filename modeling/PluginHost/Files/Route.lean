import PluginHost.Files.FileSystem

/-!
# Routes

The route of a path is every place at which somebody who follows the path has a look. What stands
anywhere else does not matter to the path.
-/

namespace PluginHost.FileSystem

/-- The places on the way from a place along the parts of a path. `follow` gives those behind a
link. -/
def stepRoute (fs : FileSystem) (follow : Place → String → List String → List Place) :
    List String → Place → List Place
  | [], place => [place]
  | part :: rest, place =>
    place ::
      match fs.turn part place with
      | .error _ => []
      | .ok (.along next) => stepRoute fs follow rest next
      | .ok (.into next) =>
        next ::
          match fs.at? next with
          | none => []
          | some ⟨.link target, _⟩ => follow place target rest
          | some _ => stepRoute fs follow rest next

/-- The places on the way along the parts of a path through at most the given number of links. -/
def walkRoute (fs : FileSystem) : Nat → List String → Place → List Place
  | 0 => stepRoute fs fun _ _ _ => []
  | links + 1 => stepRoute fs fun directory target rest =>
    let start := if Path.isAbsolute target then [] else directory
    walkRoute fs links (Path.parts target ++ rest) start

def route (fs : FileSystem) (path : String) : List Place :=
  match checkPath path with
  | .ok _ => fs.walkRoute linkLimit (Path.parts path) (fs.beginning path)
  | .error _ => []

/-- One thing at most stands at a place. -/
def Distinct (fs : FileSystem) : Prop :=
  (fs.entries.map Prod.fst).Nodup

instance (fs : FileSystem) : Decidable fs.Distinct :=
  inferInstanceAs (Decidable (fs.entries.map Prod.fst).Nodup)

/-- A place is neither one of some names in a directory nor below it. -/
def Avoids (directory : Place) (names : List String) (place : Place) : Prop :=
  ∀ name ∈ names, ¬ directory ++ [name] <+: place

instance (directory : Place) (names : List String) (place : Place) :
    Decidable (Avoids directory names place) :=
  inferInstanceAs (Decidable (∀ name ∈ names, ¬ directory ++ [name] <+: place))

/-- Nothing changed but what stands under some names in a directory. In which order a file system
lists what it holds does not count. -/
structure ChangedOnly (directory : Place) (names : List String) (fs changed : FileSystem) :
    Prop where
  workingDirectory : changed.workingDirectory = fs.workingDirectory
  process : changed.process = fs.process
  elsewhere : ∀ place, Avoids directory names place → changed.at? place = fs.at? place

end PluginHost.FileSystem
