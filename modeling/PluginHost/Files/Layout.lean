import PluginHost.Files.FileSystem

/-!
# Laying out file systems

File systems are built by putting things at paths, one after the other; the directories on the way
are made as needed.
-/

namespace PluginHost.FileSystem

/-- A file system of empty directories. -/
def ofDirectories (paths : List String) (workingDirectory : String) (process : Credentials) :
    FileSystem :=
  { holding (paths.map fun path => (Path.names path, .plainDirectory)) process with
    workingDirectory := Path.names workingDirectory }

/-- Goes to what a part of a path names at a place, and makes a directory if there is nothing. -/
def enter (fs : FileSystem) (place : Place) (part : String) : Option (FileSystem × Place) :=
  match walk fs linkLimit false [part] place with
  | .ok (.present next) => some (fs, next)
  | .ok (.vacant next) =>
    if next = place ++ [part] then some (fs.put next .plainDirectory, next) else none
  | .error _ => none

/-- The place at which something is made under a name in a directory. A file is written through a
link, a directory may be there already, and anything else needs a free name. -/
def placeFor (fs : FileSystem) (directory : Place) (name : String) (kind : FileKind) :
    Option Place :=
  let isFile :=
    match kind with
    | .file _ => true
    | _ => false
  match kind, walk fs linkLimit isFile [name] directory with
  | .file _, .ok (.vacant place) => some place
  | .file _, .ok (.present place) => if fs.isDirectoryAt place then none else some place
  | .directory, .ok (.present place) => if fs.isDirectoryAt place then some place else none
  | _, .ok (.vacant place) => if place = directory ++ [name] then some place else none
  | _, _ => none

/-- The file system with something at a path and with all directories above it, and the place of
it. Nothing is made if something else is in the way. -/
def lay (fs : FileSystem) (path : String) (e : FileEntry) : Option (FileSystem × Place) := do
  (checkPath path).toOption
  let parts := Path.parts path
  let (made, directory) ←
    parts.dropLast.foldlM (fun (made, place) part => made.enter place part) (fs, fs.beginning path)
  let place ← made.placeFor directory (← parts.getLast?) e.kind
  return (made.put place e, place)

end PluginHost.FileSystem
