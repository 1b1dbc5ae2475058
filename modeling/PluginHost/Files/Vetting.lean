import PluginHost.Error
import PluginHost.Files.FileSystem

/-!
# Vetting of plugin files

Before a library is mapped its file is checked: it has to be there, to be a regular file under an
absolute path and, if an owner is required, to be out of reach of anybody else. The caller may add
a policy of its own, which is asked last.
-/

namespace PluginHost

/-- A caller's own check of a file. It may keep a state. -/
abbrev FilePolicy (σ : Type) := String → FileStatus → σ → Except String Unit × σ

structure VettingRules (σ : Type) where
  /-- The user who has to own the file, unless the superuser does. -/
  owner : Option Nat
  policy : Option (FilePolicy σ)

/-- The permissions by which somebody else can change a file or act through it: writing by the
group and by all others, and taking the owner's identity. -/
def insecureBits : Nat := 0o4022

def shownBits : Nat := 0o7777

def octalText (n : Nat) : String :=
  String.ofList (Nat.toDigits 8 n)

/-- What is wrong with the owner or the permissions of a file, if an owner is required. -/
def ownerFault? (required : Option Nat) (status : FileStatus) : Option String :=
  match required with
  | none => none
  | some owner =>
    if status.owner ≠ superuser ∧ status.owner ≠ owner then
      some ("invalid owner (uid " ++ toString status.owner ++ ", expected " ++ toString owner ++
        " or root)")
    else if status.mode &&& insecureBits ≠ 0 then
      some ("invalid permissions (" ++ octalText (status.mode &&& shownBits) ++ ")")
    else none

/-- The checks that need no policy. -/
def vetStatus (fs : FileSystem) (required : Option Nat) (path : String) :
    Except HostError FileStatus :=
  match fs.status path with
  | .error .missing => .error (.notFound path)
  | .error .notADirectory => .error (.notFound path)
  | .error fault => .error (.untrustedFile path ("cannot stat file: " ++ fault.message))
  | .ok status =>
    if !status.isFile then .error (.untrustedFile path "not a regular file")
    else if !Path.isAbsolute path then .error (.untrustedFile path "path is not absolute")
    else
      match ownerFault? required status with
      | some reason => .error (.untrustedFile path reason)
      | none => .ok status

/-- Decides whether a file may be mapped. -/
def vet {σ : Type} (fs : FileSystem) (rules : VettingRules σ) (path : String) (state : σ) :
    Except HostError Unit × σ :=
  match vetStatus fs rules.owner path with
  | .error e => (.error e, state)
  | .ok status =>
    match rules.policy with
    | none => (.ok (), state)
    | some policy =>
      let (verdict, after) := policy path status state
      (verdict.mapError fun reason => .rejectedByPolicy path reason, after)

end PluginHost
