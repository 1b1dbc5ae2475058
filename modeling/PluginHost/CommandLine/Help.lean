import PluginHost.CommandLine.Arguments

/-!
# Help

The texts that explain the program and its commands.
-/

namespace PluginHost.CommandLine

def programName : String := "vpn-editor"

def versionText : String := programName ++ " 0.1.0\n"

/-- What a command does, in one line. -/
def CommandName.summary : CommandName → String
  | .list => "List plugin descriptions"
  | .inspect => "Load a plugin and show its identity and capabilities"
  | .serviceInfo => "Query get-service-info"
  | .addDetails => "Query get-service-add-details and each add-detail"
  | .help => "Print this message or the help of the given subcommand(s)"

def CommandName.operands : CommandName → List (String × String)
  | .list => []
  | .inspect => [("<PLUGIN>", "Plugin name, service type or library path")]
  | .serviceInfo => [("<PLUGIN>", ""), ("<SERVICE_TYPE>", "")]
  | .addDetails => [("<PLUGIN>", ""), ("<SERVICE_TYPE>", "")]
  | .help => [("[COMMAND]...", "Print help for the subcommand(s)")]

def optionSummaries : List (String × String) :=
  [("-c, --config <CONFIG>", "Configuration file"),
    ("    --plugin-dir <PLUGIN_DIR>", "Directory editor libraries are loaded from"),
    ("    --info-dir <INFO_DIR>", "Directory holding plugin descriptions"),
    ("-v, --verbose", "Enable verbose logging"),
    ("    --json", "Print results as JSON"),
    ("-h, --help", "Print help"),
    ("-V, --version", "Print version")]

def padded (width : Nat) (s : String) : String :=
  s ++ String.ofList (List.replicate (width - s.length) ' ')

def columns (title : String) (rows : List (String × String)) : String :=
  let width := (rows.map fun row => row.1.length).foldl max 0
  title ++ ":\n" ++
    String.join (rows.map fun row => "  " ++ padded width row.1 ++ "  " ++ row.2 ++ "\n")

def commandHelp (command : CommandName) : String :=
  let operands := command.operands
  let usage := String.intercalate " " (programName :: command.word :: operands.map Prod.fst)
  command.summary ++ "\n\nUsage: " ++ usage ++ "\n\n" ++
    (if operands.isEmpty then "" else columns "Arguments" operands ++ "\n") ++
    (match command with
    | .help => ""
    | _ => columns "Options" [("-h, --help", "Print help")])

def programHelp : String :=
  "Inspect and query VPN editor plugins\n\nUsage: " ++ programName ++ " [OPTIONS] <COMMAND>\n\n" ++
    columns "Commands" (CommandName.all.map fun command => (command.word, command.summary)) ++
    "\n" ++ columns "Options" optionSummaries

def helpText : Option CommandName → String
  | some command => commandHelp command
  | none => programHelp

end PluginHost.CommandLine
