import PluginHost.CommandLine.Report
import PluginHost.Config
import PluginHost.System.Libraries

/-!
# Running a command

A run reads the settings and the descriptions, opens the plugin that the command is about, and asks
it. Nothing is printed on the standard output unless all of it succeeds.
-/

namespace PluginHost.CommandLine

/-- The machine a command runs on. -/
structure Surroundings where
  files : FileSystem
  libraries : Libraries
  environment : Environment

def Surroundings.user (s : Surroundings) : Nat :=
  s.files.process.user

structure Outcome where
  /-- The exit code. There is none if the run never ends. -/
  code : Option Nat
  output : String
  errors : String
  steps : List LoadStep

/-- A part of a run: its result and the steps of its load. -/
structure Part (α : Type) where
  steps : List LoadStep
  result : Except Failure α

/-- The settings in the file that the options name, or else the default ones. There are none if the
file is waited for for ever. -/
def fileSettings (files : FileSystem) (options : Options) : Option (Except Failure Config) :=
  match options.config with
  | some path =>
    (Config.load files path).map fun loaded =>
      loaded.mapError fun e => .during (.loadConfig path) e
  | none => some (.ok Config.default)

def Options.apply (options : Options) (config : Config) : Config :=
  { config with
    pluginDirectory := options.pluginDirectory.getD config.pluginDirectory
    infoDirectory := options.infoDirectory.getD config.infoDirectory }

/-- The settings of a run: the file's, as the environment and then the options change them. -/
def settings (s : Surroundings) (options : Options) : Option (Except Failure Config) :=
  (fileSettings s.files options).map fun loaded =>
    loaded.map fun config => options.apply (config.withEnvironment s.environment)

/-- A host that knows the descriptions in the directory of the settings, unless one of them is
waited for for ever. -/
def openHost (s : Surroundings) (config : Config) : Option (Except Failure (Host Libraries)) :=
  ((Host.fresh s.libraries).scan s.files config.infoDirectory).map fun scanned =>
    scanned.mapError fun e => .during (.readDirectory config.infoDirectory) e

def librarySuffix : List Char := ['.', 's', 'o']

def namesLibrary (argument : String) : Bool :=
  argument.toList.contains '/' || librarySuffix.isSuffixOf argument.toList

/-- Opens the plugin of an argument: through the description that has it as its name, or else as
a service type, or else as the library that it names. -/
def openPlugin (s : Surroundings) (config : Config) (h : Host Libraries) (argument : String) :
    Part EditorPlugin :=
  let loader := Libraries.loader config.pluginDirectory s.files
  let owner := config.requiredOwner s.user
  match h.catalog.findByName? argument <|> h.catalog.findByService? argument with
  | some record =>
    let report := Host.loadRecord loader s.files record owner h
    let opened :=
      match report.result with
      | .error e => .error (.during (.loadDescribed record.info.name) e)
      | .ok number =>
        match report.host.instances[number]? with
        | some p => .ok p
        | none => .error (.unknownPlugin argument)
    ⟨report.steps, opened⟩
  | none =>
    if namesLibrary argument then
      let report := loader.loadFile s.files argument none ⟨owner, none⟩ h
      ⟨report.steps, report.result.mapError fun e => .during (.loadLibrary argument) e⟩
    else ⟨[], .error (.unknownPlugin argument)⟩

/-- Asks a plugin for each of the details in turn, up to the first failure. -/
def askDetails (plugin : Plugin) (serviceType : String) :
    History → List String → Except Failure (List (String × AddDetail)) × History
  | history, [] => (.ok [], history)
  | history, name :: rest =>
    match serviceAddDetail plugin history serviceType name with
    | (.error e, after) => (.error (.during (.askAddDetail name) e), after)
    | (.ok detail, after) =>
      match askDetails plugin serviceType after rest with
      | (.error e, final) => (.error e, final)
      | (.ok details, final) => (.ok ((name, detail) :: details), final)

def allDetails (p : EditorPlugin) (serviceType : String) :
    Except Failure (List (String × AddDetail)) × History :=
  match serviceAddDetails p.plugin p.history serviceType with
  | (.error e, after) => (.error (.during (.askAddDetails serviceType) e), after)
  | (.ok names, after) => askDetails p.plugin serviceType after names

def pluginReport (json : Bool) (p : EditorPlugin) : Request → Except Failure String
  | .serviceInfo _ serviceType =>
    match (serviceInfo p.plugin p.history serviceType).1 with
    | .ok info => .ok (serviceReport json serviceType info)
    | .error e => .error (.during (.askServiceInfo serviceType) e)
  | .addDetails _ serviceType =>
    (allDetails p serviceType).1.map (detailsReport json serviceType)
  | _ => .ok (instanceReport json p)

def Request.plugin? : Request → Option String
  | .list => none
  | .inspect plugin => some plugin
  | .serviceInfo plugin _ => some plugin
  | .addDetails plugin _ => some plugin

def answer (s : Surroundings) (config : Config) (h : Host Libraries) (json : Bool)
    (request : Request) : Part String :=
  match request.plugin? with
  | none => ⟨[], .ok (listReport json (h.catalog.records.map Record.info))⟩
  | some argument =>
    let opened := openPlugin s config h argument
    ⟨opened.steps, opened.result.bind fun p => pluginReport json p request⟩

/-- What a command prints, if it comes to an end. -/
def perform (s : Surroundings) (options : Options) (request : Request) : Option (Part String) := do
  match ← settings s options with
  | .error e => return ⟨[], .error e⟩
  | .ok config =>
    match ← openHost s config with
    | .error e => return ⟨[], .error e⟩
    | .ok h => return answer s config h options.json request

def Part.outcome (part : Part String) : Outcome :=
  match part.result with
  | .ok output => ⟨some 0, output, "", part.steps⟩
  | .error failure => ⟨some 1, "", failure.message ++ "\n", part.steps⟩

def run (s : Surroundings) (arguments : List String) : Outcome :=
  match read arguments with
  | .misuse => ⟨some 2, "", helpText none, []⟩
  | .help topic => ⟨some 0, helpText topic, "", []⟩
  | .version => ⟨some 0, versionText, "", []⟩
  | .run options request =>
    match perform s options request with
    | some part => part.outcome
    | none => ⟨none, "", "", []⟩

end PluginHost.CommandLine
