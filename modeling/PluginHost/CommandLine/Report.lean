import PluginHost.Call.Service
import PluginHost.CommandLine.Help
import PluginHost.Error
import PluginHost.Info.Catalog
import PluginHost.Instance
import PluginHost.Json.Writer

/-!
# Reports and failures

What the commands print, for people or as data, and what is said of a command that failed: what was
attempted, and why it did not succeed.
-/

namespace PluginHost.CommandLine

/-! ## Failures -/

inductive Attempt where
  | loadConfig (path : String)
  | readDirectory (path : String)
  /-- Loading through the description of this name. -/
  | loadDescribed (name : String)
  | loadLibrary (name : String)
  | askServiceInfo (serviceType : String)
  | askAddDetails (serviceType : String)
  | askAddDetail (detail : String)
  deriving DecidableEq, Repr

/-- Why a command failed. -/
inductive Failure where
  | during (attempt : Attempt) (cause : HostError)
  | unknownPlugin (name : String)
  deriving DecidableEq, Repr

def Attempt.message : Attempt → String
  | .loadConfig path => "Failed to load configuration from " ++ path
  | .readDirectory path => "Failed to read " ++ path
  | .loadDescribed name => "Failed to load editor plugin for " ++ name
  | .loadLibrary name => "Failed to load editor plugin " ++ name
  | .askServiceInfo serviceType => "get-service-info failed for " ++ serviceType
  | .askAddDetails serviceType => "get-service-add-details failed for " ++ serviceType
  | .askAddDetail detail => "get-service-add-detail failed for " ++ detail

/-- An error and the cause it wraps, if it wraps one. -/
def causes (e : HostError) : List String :=
  match e with
  | .io reason => [e.message, reason]
  | e => [e.message]

/-- The line in which a failure is told, from the attempt down to the last cause. -/
def Failure.message : Failure → String
  | .during attempt cause =>
    "Error: " ++ String.intercalate ": " (attempt.message :: causes cause)
  | .unknownPlugin name => "Error: VPN plugin '" ++ name ++ "' not found"

/-! ## Reports -/

/-- Lines, each with its end. -/
def linesText (lines : List String) : String :=
  String.join (lines.map fun line => line ++ "\n")

def dataText (d : Datum) : String :=
  Json.prettyText d ++ "\n"

def optionalText : Option String → Datum
  | some s => .text s
  | none => .null

def listRow (name service plugin : String) : String :=
  padded 16 name ++ " " ++ padded 48 service ++ " " ++ plugin

/-- A description as data. -/
def infoData (i : PluginInfo) : Datum :=
  .record [("name", .text i.name), ("service", .text i.service),
    ("plugin", optionalText i.plugin), ("aliases", .list (i.aliases.map .text)),
    ("description_file", optionalText i.filename)]

def listReport (json : Bool) (infos : List PluginInfo) : String :=
  if json then dataText (.list (infos.map infoData))
  else if infos.isEmpty then linesText ["No VPN plugins found"]
  else
    linesText (listRow "NAME" "SERVICE" "PLUGIN" ::
      infos.map fun i => listRow i.name i.service (i.plugin.getD "-"))

/-- What is known of an instance. -/
def instanceReport (json : Bool) (p : EditorPlugin) : String :=
  let plugin := p.plugin
  let names := plugin.capabilities.names
  if json then
    dataText (.record [("name", .text plugin.name), ("description", .text plugin.description),
      ("service", .text plugin.service), ("capabilities", .list (names.map .text)),
      ("filename", optionalText p.filename), ("residency", .text p.residency.name)])
  else
    let library :=
      match p.filename with
      | some path => ["  Library: " ++ path]
      | none => []
    linesText (["VPN Plugin: " ++ plugin.name, "  Description: " ++ plugin.description,
      "  Service: " ++ plugin.service, "  Capabilities: " ++ String.intercalate ", " names] ++
      library ++ ["  Residency: " ++ p.residency.name])

def serviceReport (json : Bool) (serviceType : String) (info : ServiceInfo) : String :=
  if json then dataText info.toDatum
  else
    linesText ["Service: " ++ serviceType, "  Short name: " ++ info.shortName,
      "  Pretty name: " ++ info.prettyName, "  Description: " ++ info.description,
      "  Flags: " ++ info.flags.description]

def detailLines (name : String) (detail : AddDetail) : List String :=
  [name ++ ": " ++ detail.prettyName, "  Description: " ++ detail.description,
    "  Key: " ++ detail.key]

/-- The details of a service type. As data they and their members stand in the order of their
names. -/
def detailsReport (json : Bool) (serviceType : String) (details : List (String × AddDetail)) :
    String :=
  if json then
    dataText (.record (Datum.sortedMembers (details.map fun (name, detail) =>
      (name, detail.toDatum.sorted))))
  else if details.isEmpty then linesText ["No add-details for " ++ serviceType]
  else linesText (details.flatMap fun (name, detail) => detailLines name detail)

end PluginHost.CommandLine
