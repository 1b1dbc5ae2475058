import PluginHost.Value.Tag

/-!
# What can go wrong between a host and its plugins

Every operation that can fail gives one of these causes; the wording is settled here alone.
-/

namespace PluginHost

inductive Direction where
  | input
  | output
  deriving DecidableEq, Repr

def Direction.name : Direction → String
  | .input => "input"
  | .output => "output"

/-- How the values of a call and its declared types disagree. -/
inductive ArgumentFault where
  | mismatch (direction : Direction) (position : Nat) (found expected : TypeTag)
  /-- No type is declared at a position. -/
  | surplus (direction : Direction) (position : Nat) (found : TypeTag) (declared : Nat)
  | count (direction : Direction) (supplied declared : Nat)
  /-- Outputs were left when the caller was done. -/
  | unclaimed (left : Nat)
  | exhausted
  | notOf (tag : TypeTag)
  /-- The fault came to light after the call had run. -/
  | completed (fault : ArgumentFault)
  /-- A fault in somebody else's words. -/
  | stated (detail : String)
  deriving DecidableEq, Repr

def ArgumentFault.detail : ArgumentFault → String
  | .mismatch direction position found expected =>
    direction.name ++ " " ++ toString position ++ " is " ++ found.name ++ ", expected " ++
      expected.name
  | .surplus direction position found declared =>
    "unexpected " ++ direction.name ++ " " ++ toString position ++ " of type " ++ found.name ++
      ", signature takes " ++ toString declared
  | .count direction supplied declared =>
    toString supplied ++ " " ++ direction.name ++ " value(s) supplied, signature takes " ++
      toString declared
  | .unclaimed left => toString left ++ " output value(s) left unclaimed"
  | .exhausted => "output list exhausted"
  | .notOf tag => "output is not " ++ tag.name
  | .completed fault => fault.detail ++ " (call already completed)"
  | .stated detail => detail

inductive HostError where
  | notFound (path : String)
  | untrustedFile (path reason : String)
  /-- The caller's policy vetoed the file. -/
  | rejectedByPolicy (path reason : String)
  /-- The library could not be mapped, or it has no factory. -/
  | loadError (plugin message : String)
  /-- The factory made no instance and gave a reason. -/
  | factoryFailed (plugin message : String)
  /-- The factory made no instance and gave no reason. -/
  | unknownInitError (plugin : String)
  | missingName (plugin : String)
  | serviceMismatch (plugin expected found : String)
  | unsupported (operation : String)
  | invalidArgument (call : String) (fault : ArgumentFault)
  | callFailed (call message : String)
  | failed (message : String)
  | configError (message : String)
  | parseError (message : String)
  | io (message : String)
  deriving DecidableEq, Repr

namespace HostError

def unsupportedCall (call : String) : HostError :=
  .unsupported ("call " ++ call)

/-- True of the routine outcome of probing for an operation. -/
def isUnsupported : HostError → Bool
  | .unsupported _ => true
  | _ => false

/-- True if the plugin file is missing, as opposed to insecure. -/
def isNotFound : HostError → Bool
  | .notFound _ => true
  | _ => false

def message : HostError → String
  | .notFound path => "plugin file not found: " ++ path
  | .untrustedFile path reason => "untrusted plugin file " ++ path ++ ": " ++ reason
  | .rejectedByPolicy path reason => "plugin file " ++ path ++ " rejected: " ++ reason
  | .loadError plugin message => "cannot load plugin \"" ++ plugin ++ "\": " ++ message
  | .factoryFailed plugin message => "failed to initialize plugin " ++ plugin ++ ": " ++ message
  | .unknownInitError plugin => "unknown error initializing plugin " ++ plugin
  | .missingName plugin => "cannot load VPN plugin in '" ++ plugin ++ "': missing plugin name"
  | .serviceMismatch plugin expected found =>
    "cannot load VPN plugin in '" ++ plugin ++ "': invalid service name (expected '" ++ expected ++
      "', got '" ++ found ++ "')"
  | .unsupported operation => "the plugin does not support " ++ operation
  | .invalidArgument call fault =>
    "invalid arguments for call " ++ call ++ ": " ++ fault.detail ++
      " (caller and plugin disagree about the call signature)"
  | .callFailed call message => "call " ++ call ++ " failed: " ++ message
  | .failed message => message
  | .configError message => "configuration error: " ++ message
  | .parseError message => "parse error: " ++ message
  | .io message => "IO error: " ++ message

end HostError

end PluginHost
