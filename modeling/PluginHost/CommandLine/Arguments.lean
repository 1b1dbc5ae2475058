/-!
# Arguments of the command line

Options stand before the command, each at most once; after the command stand its operands. An
option's value follows it, or is attached to it with or without an equals sign. The arguments are
read from left to right: what asks for help ends the reading, and so does the first mistake.
-/

namespace PluginHost.CommandLine

inductive Request where
  | list
  | inspect (plugin : String)
  | serviceInfo (plugin serviceType : String)
  | addDetails (plugin serviceType : String)
  deriving DecidableEq, Repr

inductive CommandName where
  | list
  | inspect
  | serviceInfo
  | addDetails
  | help
  deriving DecidableEq, Repr

structure Options where
  config : Option String
  pluginDirectory : Option String
  infoDirectory : Option String
  verbose : Bool
  json : Bool
  deriving DecidableEq, Repr

inductive Reading where
  | run (options : Options) (request : Request)
  /-- Help with a command, or with the program. -/
  | help (topic : Option CommandName)
  | version
  | misuse
  deriving DecidableEq, Repr

inductive ValueOption where
  | config
  | pluginDirectory
  | infoDirectory

inductive Switch where
  | verbose
  | json

inductive OptionKind where
  | valued (option : ValueOption)
  | switch (option : Switch)
  | help
  | version

namespace CommandName

def all : List CommandName := [.list, .inspect, .serviceInfo, .addDetails, .help]

def word : CommandName → String
  | .list => "list"
  | .inspect => "show"
  | .serviceInfo => "service-info"
  | .addDetails => "add-details"
  | .help => "help"

def ofWord? (word : String) : Option CommandName :=
  all.find? fun command => command.word == word

def request? : CommandName → List String → Option Request
  | .list, [] => some .list
  | .inspect, [plugin] => some (.inspect plugin)
  | .serviceInfo, [plugin, serviceType] => some (.serviceInfo plugin serviceType)
  | .addDetails, [plugin, serviceType] => some (.addDetails plugin serviceType)
  | _, _ => none

def operandCount : CommandName → Nat
  | .list => 0
  | .inspect => 1
  | .serviceInfo => 2
  | .addDetails => 2
  | .help => 0

end CommandName

namespace Options

def none : Options := ⟨.none, .none, .none, false, false⟩

/-- Gives an option its value. There has to be something in it, and it has to be the first. -/
def give (options : Options) (option : ValueOption) (value : String) : Option Options :=
  if value.isEmpty then .none
  else
    match option, options with
    | .config, ⟨.none, p, i, v, j⟩ => some ⟨some value, p, i, v, j⟩
    | .pluginDirectory, ⟨c, .none, i, v, j⟩ => some ⟨c, some value, i, v, j⟩
    | .infoDirectory, ⟨c, p, .none, v, j⟩ => some ⟨c, p, some value, v, j⟩
    | _, _ => .none

def turnOn (options : Options) : Switch → Option Options
  | .verbose => if options.verbose then .none else some { options with verbose := true }
  | .json => if options.json then .none else some { options with json := true }

end Options

def longOption? (name : String) : Option OptionKind :=
  match name with
  | "config" => some (.valued .config)
  | "plugin-dir" => some (.valued .pluginDirectory)
  | "info-dir" => some (.valued .infoDirectory)
  | "verbose" => some (.switch .verbose)
  | "json" => some (.switch .json)
  | "help" => some .help
  | "version" => some .version
  | _ => none

def shortOption? (letter : Char) : Option OptionKind :=
  match letter with
  | 'c' => some (.valued .config)
  | 'v' => some (.switch .verbose)
  | 'h' => some .help
  | 'V' => some .version
  | _ => none

inductive ArgumentForm where
  /-- The end of the options. -/
  | separator
  | long (name : String) (attached : Option String)
  | short (letters : List Char)
  | word (word : String)

/-- Splits an argument at its first equals sign. -/
def splitAttached (cs : List Char) : String × Option String :=
  match cs.span (· != '=') with
  | (name, '=' :: value) => (String.ofList name, some (String.ofList value))
  | (name, _) => (String.ofList name, none)

/-- What an argument is by its first characters. A single hyphen is a word. -/
def ArgumentForm.of (argument : String) : ArgumentForm :=
  match argument.toList with
  | ['-', '-'] => .separator
  | '-' :: '-' :: rest =>
    let (name, attached) := splitAttached rest
    .long name attached
  | '-' :: letter :: letters => .short (letter :: letters)
  | _ => .word argument

/-- Whether the argument after an option can be its value. -/
def isValue (argument : String) : Bool :=
  match ArgumentForm.of argument with
  | .word _ => true
  | _ => false

/-- Where reading an argument leads. -/
inductive Progress where
  | ahead (options : Options)
  /-- The value of the option is still to come. -/
  | awaiting (options : Options) (option : ValueOption)
  | done (reading : Reading)

/-- Goes on with changed options, if they could be changed. -/
def Progress.ofOptions : Option Options → Progress
  | some options => .ahead options
  | none => .done .misuse

def readLong (options : Options) (name : String) (attached : Option String) : Progress :=
  match longOption? name, attached with
  | some (.valued option), some value => .ofOptions (options.give option value)
  | some (.valued option), none => .awaiting options option
  | some (.switch option), none => .ofOptions (options.turnOn option)
  | some .help, none => .done (.help none)
  | some .version, none => .done .version
  | _, _ => .done .misuse

/-- Reads letters of options; what follows the letter of an option with a value is the value. -/
def readShort (options : Options) : List Char → Progress
  | [] => .ahead options
  | letter :: rest =>
    match shortOption? letter with
    | some (.switch option) =>
      match options.turnOn option with
      | some changed => readShort changed rest
      | none => .done .misuse
    | some (.valued option) =>
      match rest with
      | [] => .awaiting options option
      | '=' :: value => .ofOptions (options.give option (String.ofList value))
      | value => .ofOptions (options.give option (String.ofList value))
    | some .help => .done (.help none)
    | some .version => .done .version
    | none => .done .misuse

/-- Reads the operands of a command. Behind the separator everything is an operand. -/
def readOperands (command : CommandName) (options : Options) :
    List String → List String → Reading
  | operands, [] =>
    match command.request? operands with
    | some request => .run options request
    | none => .misuse
  | operands, argument :: rest =>
    match ArgumentForm.of argument with
    | .separator =>
      match command.request? (operands ++ rest) with
      | some request => .run options request
      | none => .misuse
    | .long "help" none => .help (some command)
    | .short ('h' :: _) => .help (some command)
    | .word word =>
      if operands.length < command.operandCount then
        readOperands command options (operands ++ [word]) rest
      else .misuse
    | _ => .misuse

def readTopics (topic : Option CommandName) : List String → Reading
  | [] => .help topic
  | word :: rest =>
    match topic, CommandName.ofWord? word with
    | none, some command => readTopics (some command) rest
    | _, _ => .misuse

/-- Reads the arguments after the options: a command and its operands. -/
def readCommand (options : Options) (word : String) (rest : List String) : Reading :=
  match CommandName.ofWord? word with
  | some .help => readTopics none rest
  | some command => readOperands command options [] rest
  | none => .misuse

def readOption (options : Options) (argument : String) (rest : List String) : Progress :=
  match ArgumentForm.of argument with
  | .separator => .done .misuse
  | .long name attached => readLong options name attached
  | .short letters => readShort options letters
  | .word word => .done (readCommand options word rest)

/-- Reads the arguments from the options on. -/
def readFrom (options : Options) : List String → Reading
  | [] => .misuse
  | argument :: rest =>
    match readOption options argument rest with
    | .done reading => reading
    | .ahead changed => readFrom changed rest
    | .awaiting changed option =>
      match rest with
      | [] => .misuse
      | value :: more =>
        match if isValue value then changed.give option value else none with
        | some given => readFrom given more
        | none => .misuse

def read (arguments : List String) : Reading :=
  readFrom Options.none arguments

end PluginHost.CommandLine
