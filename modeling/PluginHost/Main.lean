import PluginHost.CommandLine.Run
import PluginHost.Files.Layout
import PluginHost.Json.Reader
import PluginHost.Script.Reading

/-!
# The program

A run is about files that are known before it begins: the configuration file, the descriptions and
the libraries. They are read first. A library that can be run here is a script; any other file is no
library. Owners and permission bits cannot be asked for, so every file counts as the superuser's
and the run as somebody else's, from whom a file is kept exactly if it could not be read.
-/

namespace PluginHost.CommandLine

def somebody : Credentials := ⟨superuser + 1, superuser + 1, []⟩

/-- The bits of a file that nobody but its owner may use. -/
def privateMode : Nat := 0o600

/-- Reads a file or the names in a directory into a file system, at the path itself. -/
def layPath (files : FileSystem) (path : String) : IO FileSystem := do
  let real := (← IO.currentDir) / path
  let laid (e : FileEntry) := ((files.lay path e).map Prod.fst).getD files
  if ← real.isDir then
    return laid .plainDirectory
  else if ← real.pathExists then
    try return laid (.plainFile (← IO.FS.readBinFile real))
    catch _ => return laid ⟨.file ByteArray.empty, superuser, superuser, privateMode⟩
  else return files

/-- Reads a directory with the files in it. -/
def layDirectory (files : FileSystem) (path : String) : IO FileSystem := do
  let real := (← IO.currentDir) / path
  let mut laid ← layPath files path
  if ← real.isDir then
    for entry in ← real.readDir do
      laid ← layPath laid (Path.join path entry.fileName)
  return laid

def scriptedLibraries (files : FileSystem) : List (LibraryKey × Library) :=
  files.entries.filterMap fun (place, e) =>
    match e.kind with
    | .file content => do
      let script ← Json.readDatum? (← String.fromUTF8? content)
      return (.file place, .editor (← Script.outcomeOf? script))
    | _ => none

/-- The files that a run with these options is about. -/
def layFiles (environment : Environment) (files : FileSystem) (options : Options)
    (request : Request) : IO FileSystem := do
  let mut laid := files
  if let some path := options.config then
    laid ← layPath laid path
  match settings ⟨laid, Libraries.ofKnown [], environment⟩ options with
  | some (.ok config) =>
    laid ← layDirectory laid config.infoDirectory
    laid ← layDirectory laid config.pluginDirectory
    let scanned := (Catalog.scan laid 0 config.infoDirectory).bind Except.toOption
    let known := scanned.getD Catalog.empty
    let named := known.records.filterMap fun record => record.info.plugin
    for path in request.plugin?.toList ++ named do
      if namesLibrary path then
        laid ← layPath laid path
    return laid
  | _ => return laid

end PluginHost.CommandLine

open PluginHost PluginHost.CommandLine

def main (arguments : List String) : IO UInt32 := do
  let environment : Environment :=
    ⟨← IO.getEnv "NETCTL_VPN_PLUGIN_DIR", ← IO.getEnv "NETCTL_VPN_INFO_DIR"⟩
  let directory := toString (← IO.currentDir)
  let empty ← layPath (FileSystem.ofDirectories [] directory somebody) directory
  let files ←
    match read arguments with
    | .run options request => layFiles environment empty options request
    | _ => pure empty
  let libraries := Libraries.ofKnown (scriptedLibraries files)
  let outcome := run ⟨files, libraries, environment⟩ arguments
  IO.print outcome.output
  IO.eprint outcome.errors
  -- a file that is waited for for ever has been waited for before the run began
  return UInt32.ofNat (outcome.code.getD 0)
