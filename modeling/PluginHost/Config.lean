import PluginHost.Data.Decode
import PluginHost.Error
import PluginHost.Files.FileSystem
import PluginHost.Toml.Reader
import PluginHost.Toml.Writer

/-!
# Configuration

Where libraries and descriptions are found, and whether libraries have to belong to the user. Every
setting has a default; the environment and the command line may say otherwise.
-/

namespace PluginHost

structure Config where
  pluginDirectory : String
  infoDirectory : String
  /-- Libraries have to belong to the user or to the superuser. -/
  checkOwner : Bool
  deriving DecidableEq, Repr

structure Environment where
  pluginDirectory : Option String
  infoDirectory : Option String
  deriving DecidableEq, Repr

namespace Config

def default : Config := ⟨"/usr/lib/netctl/vpn", "/etc/netctl/vpn", true⟩

def members (c : Config) : List (String × Datum) :=
  [("paths", .record [("plugin_dir", .text c.pluginDirectory),
      ("plugin_info_dir", .text c.infoDirectory)]),
    ("loader", .record [("check_owner", .bool c.checkOwner)])]

def pathsOfTree (d : Dialect) (t : Tree) : Decoded (String × String) := do
  let path := Decode.path d
  let fields ← Decode.structureFields d "EditorPaths"
    [Decode.field "plugin_dir" path, Decode.field "plugin_info_dir" path] t
  return (← fields.withDefault "plugin_dir" default.pluginDirectory path,
    ← fields.withDefault "plugin_info_dir" default.infoDirectory path)

def loaderOfTree (d : Dialect) (t : Tree) : Decoded Bool := do
  let flag := Decode.bool d
  let fields ← Decode.structureFields d "LoaderSettings" [Decode.field "check_owner" flag] t
  fields.withDefault "check_owner" default.checkOwner flag

def ofTree (d : Dialect) (t : Tree) : Decoded Config := do
  let fields ← Decode.structureFields d "EditorConfig"
    [Decode.field "paths" (pathsOfTree d), Decode.field "loader" (loaderOfTree d)] t
  let (plugins, infos) ←
    fields.withDefault "paths" (default.pluginDirectory, default.infoDirectory) (pathsOfTree d)
  return ⟨plugins, infos, ← fields.withDefault "loader" default.checkOwner (loaderOfTree d)⟩

def fileText (c : Config) : String :=
  Toml.text c.members

def parse (text : String) : Except HostError Config :=
  (Toml.decode ofTree text).mapError fun reason =>
    .configError ("Failed to parse config: " ++ reason)

/-- Reads a configuration file. There is no result if the file is waited for for ever. -/
def load (fs : FileSystem) (path : String) : Option (Except HostError Config) :=
  (fs.readText path).map fun
    | .ok text => parse text
    | .error fault => .error (.configError ("Failed to read config: " ++ fault.message))

def save (c : Config) (fs : FileSystem) (path : String) : Option (Except HostError FileSystem) :=
  (fs.writeText path c.fileText).map fun written =>
    written.mapError fun fault => .configError ("Failed to write config: " ++ fault.message)

/-- A value that is set and not empty. -/
def override (value : Option String) (otherwise : String) : String :=
  match value with
  | some s => if s.isEmpty then otherwise else s
  | none => otherwise

/-- The settings as the environment changes them; an empty value changes nothing. -/
def withEnvironment (c : Config) (env : Environment) : Config :=
  { c with
    pluginDirectory := override env.pluginDirectory c.pluginDirectory
    infoDirectory := override env.infoDirectory c.infoDirectory }

/-- The owner that libraries have to have, if owners are checked. -/
def requiredOwner (c : Config) (user : Nat) : Option Nat :=
  if c.checkOwner then some user else none

end Config

end PluginHost
