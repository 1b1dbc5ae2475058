import PluginHost.Data.Decode
import PluginHost.Error
import PluginHost.Text.Pieces
import PluginHost.Toml.Reader
import PluginHost.Toml.Writer

/-!
# Plugin descriptions

A descriptor is what a description file says about a plugin: the service it is for, the library that
edits its connections, and what else the service is called. A description that can be used is a
descriptor with a name and a service that are not blank. Of the file it came from only the name is
kept, for messages.
-/

namespace PluginHost

/-! ## Descriptors -/

structure Descriptor where
  name : String
  service : String
  /-- The editor library: a name in the plugin directory or a path. -/
  plugin : Option String
  /-- An auxiliary program of the service. -/
  program : Option String
  aliases : List String
  /-- Several connections can be up at once. -/
  supportsMultiple : Bool
  deriving DecidableEq, Repr

namespace Descriptor

/-- A member that is left out if there is nothing to say. -/
def optionalMember (name : String) : Option String → List (String × Datum)
  | some s => [(name, .text s)]
  | none => []

def members (x : Descriptor) : List (String × Datum) :=
  [("name", .text x.name), ("service", .text x.service)] ++ optionalMember "plugin" x.plugin ++
    optionalMember "program" x.program ++
    (if x.aliases.isEmpty then [] else [("aliases", .list (x.aliases.map .text))]) ++
    [("supports_multiple", .bool x.supportsMultiple)]

def toDatum (x : Descriptor) : Datum :=
  .record x.members

/-- A descriptor in a data file. Only the name and the service have to be given. -/
def ofTree (d : Dialect) (t : Tree) : Decoded Descriptor := do
  let text := Decode.text d
  let plugin := Decode.optional text
  let program := Decode.optional (Decode.path d)
  let aliases := Decode.list d text
  let flag := Decode.bool d
  let fields ← Decode.structureFields d "PluginDescriptor"
    [Decode.field "name" text, Decode.field "service" text, Decode.field "plugin" plugin,
      Decode.field "program" program, Decode.field "aliases" aliases,
      Decode.field "supports_multiple" flag] t
  return ⟨← fields.required "name" text, ← fields.required "service" text,
    ← fields.withDefault "plugin" none plugin, ← fields.withDefault "program" none program,
    ← fields.withDefault "aliases" [] aliases,
    ← fields.withDefault "supports_multiple" false flag⟩

end Descriptor

/-! ## Descriptions -/

/-- A plugin description that can be used. -/
structure PluginInfo where
  descriptor : Descriptor
  filename : Option String
  named : Text.allBlank descriptor.name = false
  served : Text.allBlank descriptor.service = false
  deriving DecidableEq

namespace PluginInfo

def name (i : PluginInfo) : String := i.descriptor.name

def service (i : PluginInfo) : String := i.descriptor.service

def plugin (i : PluginInfo) : Option String := i.descriptor.plugin

def program (i : PluginInfo) : Option String := i.descriptor.program

def aliases (i : PluginInfo) : List String := i.descriptor.aliases

def ofDescriptor (x : Descriptor) (filename : Option String) : Except HostError PluginInfo :=
  if named : Text.allBlank x.name = false then
    if served : Text.allBlank x.service = false then .ok ⟨x, filename, named, served⟩
    else .error (.parseError ("plugin info " ++ x.name ++ " has no service"))
  else .error (.parseError "plugin info has no name")

def parse (text : String) (filename : Option String) : Except HostError PluginInfo :=
  match Toml.decode Descriptor.ofTree text with
  | .ok x => ofDescriptor x filename
  | .error reason => .error (.parseError reason)

def fileText (x : Descriptor) : String :=
  Toml.text x.members

/-- Whether the plugin handles the service type, as its service or as an alias. -/
def supports (i : PluginInfo) (serviceType : String) : Bool :=
  i.service == serviceType || i.aliases.contains serviceType

end PluginInfo

end PluginHost
