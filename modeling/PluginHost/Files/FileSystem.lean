/-!
# File systems

A file system says what stands at which place, as one process finds it. A place is the list of
names that lead to it from the root through directories alone. A path is a text whose parts stand
between slashes; it leads to a place through symbolic links as well, and only through directories
that the process may search. Names are texts: a file whose name is none cannot be spoken of here.
-/

namespace PluginHost

namespace Path

def isAbsolute (path : String) : Bool :=
  path.toList.head? == some '/'

def endsInSlash (path : String) : Bool :=
  path.toList.getLast? == some '/'

/-- The path of a name in a directory. An absolute name stands for itself. -/
def join (directory name : String) : String :=
  if isAbsolute name then name
  else if directory.isEmpty || endsInSlash directory then directory ++ name
  else directory ++ "/" ++ name

def names (path : String) : List String :=
  ((path.toList.splitOn '/').map String.ofList).filter fun part => !part.isEmpty

/-- The parts of a path: its names, and an empty part if a slash at its end asks for a directory. -/
def parts (path : String) : List String :=
  if endsInSlash path then names path ++ [""] else names path

/-- The parts that lead to the directory in which the last name of a path is looked up. -/
def above (path : String) : List String :=
  if (names path).isEmpty then [] else (names path).dropLast ++ ["."]

/-- What follows the last dot of a file name, unless the name begins with it or is two dots. -/
def suffix? (name : String) : Option String :=
  if name = ".." then none
  else
    match (name.toList.reverse.span (· != '.')) with
    | (_, []) => none
    | (_, [_]) => none
    | (last, _) => some (String.ofList last.reverse)

end Path

/-! ## What stands at a place -/

/-- A place below the root. -/
abbrev Place := List String

inductive FileKind where
  | file (content : ByteArray)
  | directory
  /-- A pipe has nobody at its other end, so whoever opens it waits for ever. -/
  | pipe
  | socket
  /-- A device with all that can be read from it, unless that has no end. -/
  | device (input : Option ByteArray)
  | link (target : String)

structure Permissions where
  owner : Nat
  group : Nat
  mode : Nat
  deriving DecidableEq, Repr

structure FileEntry where
  kind : FileKind
  permissions : Permissions

/-- The user to whom nothing is denied. -/
def superuser : Nat := 0

structure Credentials where
  user : Nat
  group : Nat
  otherGroups : List Nat

/-- What a process may do with a file. In a directory, to search is to look up a name. -/
inductive Access where
  | search
  | write
  | read

def Access.bit : Access → Nat
  | .search => 0
  | .write => 1
  | .read => 2

/-- Whether a file grants an access. The bits of the owner, the group or all others decide,
whichever of them the process belongs to first. -/
def Permissions.grant (p : Permissions) (who : Credentials) (access : Access) : Bool :=
  if who.user = superuser then true
  else if who.user = p.owner then p.mode.testBit (6 + access.bit)
  else if p.group ∈ who.group :: who.otherGroups then p.mode.testBit (3 + access.bit)
  else p.mode.testBit access.bit

/-- The files of a machine as a process finds them. -/
structure FileSystem where
  entries : List (Place × FileEntry)
  root : Permissions
  process : Credentials
  workingDirectory : Place

inductive FileFault where
  | missing
  | notADirectory
  | isADirectory
  | denied
  | nameTooLong
  | tooManyLinks
  | noDevice
  | notText
  | badName
  deriving DecidableEq, Repr

def FileFault.message : FileFault → String
  | .missing => "No such file or directory (os error 2)"
  | .notADirectory => "Not a directory (os error 20)"
  | .isADirectory => "Is a directory (os error 21)"
  | .denied => "Permission denied (os error 13)"
  | .nameTooLong => "File name too long (os error 36)"
  | .tooManyLinks => "Too many levels of symbolic links (os error 40)"
  | .noDevice => "No such device or address (os error 6)"
  | .notText => "stream did not contain valid UTF-8"
  | .badName => "file name contained an unexpected NUL byte"

structure FileStatus extends Permissions where
  isFile : Bool
  length : Nat
  deriving DecidableEq, Repr

namespace FileEntry

/-- A file that is the superuser's and that everybody may read. -/
def plainFile (content : ByteArray) : FileEntry :=
  ⟨.file content, superuser, superuser, 0o644⟩

/-- A directory that is the superuser's and that everybody may search and list. -/
def plainDirectory : FileEntry :=
  ⟨.directory, superuser, superuser, 0o755⟩

def isDirectory (e : FileEntry) : Bool :=
  match e.kind with
  | .directory => true
  | _ => false

def status (e : FileEntry) : FileStatus :=
  match e.kind with
  | .file content => ⟨e.permissions, true, content.size⟩
  | _ => ⟨e.permissions, false, 0⟩

end FileEntry

namespace FileSystem

def newFileMode : Nat := 0o644

/-- A file system that holds these files, under a root that belongs to the superuser. -/
def holding (entries : List (Place × FileEntry)) (process : Credentials) : FileSystem :=
  ⟨entries, FileEntry.plainDirectory.permissions, process, []⟩

def at? (fs : FileSystem) (place : Place) : Option FileEntry :=
  if place.isEmpty then some ⟨.directory, fs.root⟩ else fs.entries.lookup place

def isDirectoryAt (fs : FileSystem) (place : Place) : Bool :=
  match fs.at? place with
  | some e => e.isDirectory
  | none => false

def permits (fs : FileSystem) (access : Access) (place : Place) : Bool :=
  match fs.at? place with
  | some e => e.permissions.grant fs.process access
  | none => false

/-! ## Following paths -/

/-- Where a path ends: at a place, or at a name that a directory does not have yet. -/
inductive Target where
  | present (place : Place)
  | vacant (place : Place)
  deriving DecidableEq, Repr

def nameLimit : Nat := 255

def pathLimit : Nat := 4095

def linkLimit : Nat := 40

def beginning (fs : FileSystem) (path : String) : Place :=
  if Path.isAbsolute path then [] else fs.workingDirectory

/-- What a part of a path asks for: to go on from a directory, or to look up what stands under a
name. -/
inductive Turn where
  | along (place : Place)
  | into (place : Place)

def turn (fs : FileSystem) (part : String) (place : Place) : Except FileFault Turn :=
  if !fs.isDirectoryAt place then .error .notADirectory
  -- nothing is looked up behind the slash at the end of a path
  else if part = "" then .ok (.along place)
  else if !fs.permits .search place then .error .denied
  else if part = "." then .ok (.along place)
  else if part = ".." then .ok (.along place.dropLast)
  else if nameLimit < part.utf8ByteSize then .error .nameTooLong
  else .ok (.into (place ++ [part]))

/-- Goes on from a place along the parts of a path. At a link it is left to `follow` where to go:
it gets the directory of the link, the target, and the parts that are left. -/
def step (fs : FileSystem)
    (follow : Place → String → List String → Except FileFault Target) :
    List String → Place → Except FileFault Target
  | [], place => .ok (.present place)
  | part :: rest, place =>
    match fs.turn part place with
    | .error fault => .error fault
    | .ok (.along next) => step fs follow rest next
    | .ok (.into next) =>
      match fs.at? next with
      | none => if rest.isEmpty then .ok (.vacant next) else .error .missing
      | some ⟨.link target, _⟩ => follow place target rest
      | some _ => step fs follow rest next

/-- Goes along the parts of a path through at most the given number of links. On the way to a file
that is written, a link at the end may not ask for a directory. -/
def walk (fs : FileSystem) : Nat → Bool → List String → Place → Except FileFault Target
  | 0, _ => step fs fun _ _ _ => .error .tooManyLinks
  | links + 1, isWritten => step fs fun directory target rest =>
    let start := if Path.isAbsolute target then [] else directory
    if isWritten && rest.isEmpty && Path.endsInSlash target then do
      let _ ← walk fs links false (Path.above target) start
      .error .isADirectory
    else walk fs links isWritten (Path.parts target ++ rest) start

def checkPath (path : String) : Except FileFault Unit :=
  if path.toList.contains '\x00' then .error .badName
  else if path.isEmpty then .error .missing
  else if pathLimit < path.utf8ByteSize then .error .nameTooLong
  else .ok ()

def resolve (fs : FileSystem) (path : String) : Except FileFault Place := do
  checkPath path
  match ← walk fs linkLimit false (Path.parts path) (fs.beginning path) with
  | .present place => return place
  | .vacant _ => .error .missing

def entry (fs : FileSystem) (path : String) : Except FileFault FileEntry := do
  let place ← fs.resolve path
  match fs.at? place with
  | some e => return e
  | none => .error .missing

def status (fs : FileSystem) (path : String) : Except FileFault FileStatus :=
  (fs.entry path).map FileEntry.status

/-! ## Reading and writing -/

/-- The names in a directory, in no particular order. -/
def namesIn (fs : FileSystem) (directory : Place) : List String :=
  fs.entries.filterMap fun (place, _) =>
    match place.getLast? with
    | some name => if place.dropLast = directory then some name else none
    | none => none

def list (fs : FileSystem) (path : String) : Except FileFault (List String) := do
  let place ← fs.resolve path
  if !fs.isDirectoryAt place then .error .notADirectory
  else if !fs.permits .read place then .error .denied
  else return fs.namesIn place

def textOf (content : ByteArray) : Except FileFault String :=
  match String.fromUTF8? content with
  | some s => .ok s
  | none => .error .notText

/-- The text that is read from something, or nothing if no end of it comes. -/
def readEntry (fs : FileSystem) (e : FileEntry) : Option (Except FileFault String) :=
  match e.permissions.grant fs.process .read, e.kind with
  | false, _ => some (.error .denied)
  | true, .file content => some (textOf content)
  | true, .directory => some (.error .isADirectory)
  | true, .pipe => none
  | true, .socket => some (.error .noDevice)
  | true, .device input => input.map textOf
  | true, .link _ => some (.error .tooManyLinks)

/-- The text under a path, or nothing if the reader waits for ever. -/
def readText (fs : FileSystem) (path : String) : Option (Except FileFault String) :=
  match fs.entry path with
  | .ok e => fs.readEntry e
  | .error fault => some (.error fault)

def put (fs : FileSystem) (place : Place) (e : FileEntry) : FileSystem :=
  if place.isEmpty then fs
  else if (fs.entries.lookup place).isSome then
    { fs with entries := fs.entries.map fun old => if old.1 = place then (place, e) else old }
  else { fs with entries := fs.entries ++ [(place, e)] }

/-- Where a text goes that is written under a path. -/
def destination (fs : FileSystem) (path : String) : Except FileFault Target := do
  checkPath path
  if Path.endsInSlash path then do
    let _ ← walk fs linkLimit false (Path.above path) (fs.beginning path)
    .error .isADirectory
  else walk fs linkLimit true (Path.parts path) (fs.beginning path)

def overwrite (fs : FileSystem) (place : Place) (e : FileEntry) (text : String) :
    Option (Except FileFault FileSystem) :=
  match e.kind, e.permissions.grant fs.process .write with
  | .directory, _ => some (.error .isADirectory)
  | _, false => some (.error .denied)
  | .file _, true => some (.ok (fs.put place ⟨.file text.toUTF8, e.permissions⟩))
  | .pipe, true => none
  | .socket, true => some (.error .noDevice)
  | .device _, true => some (.ok fs)
  | .link _, true => some (.error .tooManyLinks)

/-- The file system after a text was written under a path, which makes a file that is not there, or
nothing if the writer waits for ever. -/
def writeText (fs : FileSystem) (path text : String) : Option (Except FileFault FileSystem) :=
  match fs.destination path with
  | .error fault => some (.error fault)
  | .ok (.vacant place) =>
    if fs.permits .write place.dropLast then
      some (.ok (fs.put place
        ⟨.file text.toUTF8, fs.process.user, fs.process.group, newFileMode⟩))
    else some (.error .denied)
  | .ok (.present place) =>
    match fs.at? place with
    | some e => fs.overwrite place e text
    | none => some (.error .missing)

end FileSystem

end PluginHost
