import VaultAccess.Library.Programs
import VaultAccess.Model.Store

/-!
# The state file

`read_state` and `write_state_guarded` of `src/access/provider_store.rs`, step by step: a
temporary file is written, synced and renamed over the state file, and the directory is
synced. Every step may fail, and the process may stop before any of them. A file has the
bytes that are read from it and the bytes that an `fsync` made durable; a rename that the
directory was not synced after may be lost with the machine.
-/

set_option autoImplicit false

namespace VaultAccess.Model.Persistence

open VaultAccess.Library

def PRIVATE_FILE_MODE : UInt32 := 0o600

/-- The process: its user, and its umask, which leaves the owner the permissions of a
private file. -/
structure Process where
  uid : UInt32
  umask : UInt32
  keeps : PRIVATE_FILE_MODE &&& ~~~umask = PRIVATE_FILE_MODE

/-- `serde_json` for the document of a state. -/
structure Codec where
  encode : StoredProviderState → Option (List UInt8)
  decode : List UInt8 → Option StoredProviderState

structure File where
  regular : Bool
  uid : UInt32
  mode : UInt32
  content : List UInt8
  /-- What the last `fsync` of the file made durable. -/
  persisted : Option (List UInt8)
  deriving DecidableEq, Repr

/-- The directory and the open store. -/
structure Files where
  /-- `provider-state.json`. -/
  state : File
  /-- The file a machine that stops now may find there instead. -/
  previous : Option File
  /-- `.provider-state.json.new`. -/
  temporary : Option File
  poisoned : Bool
  deriving DecidableEq, Repr

/-- What a machine that stops does: whether a rename that was not synced survives, and
the bytes it leaves of a file that was not synced. -/
structure Crash where
  renamed : Bool
  garbage : List UInt8

/-- The bytes of the state file after the machine stopped. -/
def Files.afterCrash (files : Files) (crash : Crash) : List UInt8 :=
  match files.previous with
  | none => files.state.persisted.getD crash.garbage
  | some previous =>
    if crash.renamed then files.state.persisted.getD crash.garbage
    else previous.persisted.getD crash.garbage

/-- SRCLINE: provider_store.rs:631-648, 663-680 -/
def File.isPrivate (uid : UInt32) (file : File) : Bool :=
  file.regular && file.uid = uid && file.mode &&& 0o777 = PRIVATE_FILE_MODE

/-! ## Steps -/

inductive FileAct where
  | loadPoisoned
  | storePoisoned
  | validateLayout
  | readToString
  | temporaryExists
  | validateTemporary
  | removeTemporary
  | createTemporary
  | setPermissions
  | writeAll (bytes : List UInt8)
  | syncAll
  | validateOpenFile
  | stillAuthorized
  | rename
  | syncDirectory

@[reducible]
def FileAns : FileAct → Type
  | .validateLayout | .validateTemporary | .validateOpenFile => Except ProviderDiagnostic Unit
  | .readToString => Except ProviderDiagnostic (List UInt8)
  | .storePoisoned => Unit
  | _ => Bool

/-- What happens to a step: whether it fails, what a failed write or removal leaves, and
whether the caller is still authorized. -/
structure Fault where
  fails : Option ProviderDiagnostic
  written : ℕ
  removed : Bool
  authorized : Bool

/-- A check that the step's fault or the file fails. -/
def checked (fault : Fault) (passes : Bool) : Except ProviderDiagnostic Unit :=
  match fault.fails with
  | some diagnostic => .error diagnostic
  | none => if passes then .ok () else .error .unsafeState

/-- What a step does. -/
def perform (process : Process) : (a : FileAct) → Fault → Files → FileAns a × Files
  | .loadPoisoned, _, files => (files.poisoned, files)
  | .storePoisoned, _, files => ((), { files with poisoned := true })
  | .validateLayout, fault, files => (checked fault (files.state.isPrivate process.uid), files)
  | .readToString, fault, files =>
    (match fault.fails with
      | some diagnostic => .error diagnostic
      | none => .ok files.state.content, files)
  | .temporaryExists, _, files => (files.temporary.isSome, files)
  | .validateTemporary, fault, files =>
    (checked fault (files.temporary.any (·.isPrivate process.uid)), files)
  | .removeTemporary, fault, files =>
    (fault.fails.isNone,
      if fault.fails.isNone || fault.removed then { files with temporary := none } else files)
  | .createTemporary, fault, files =>
    if fault.fails.isSome || files.temporary.isSome then (false, files)
    else
      (true, { files with
        temporary := some ⟨true, process.uid, PRIVATE_FILE_MODE &&& ~~~process.umask, [], none⟩ })
  | .setPermissions, fault, files =>
    if fault.fails.isSome then (false, files)
    else
      (true, { files with temporary := files.temporary.map fun file => { file with mode := PRIVATE_FILE_MODE } })
  | .writeAll bytes, fault, files =>
    let content := if fault.fails.isSome then bytes.take fault.written else bytes
    (fault.fails.isNone,
      { files with
        temporary := files.temporary.map fun file => { file with content, persisted := none } })
  | .syncAll, fault, files =>
    if fault.fails.isSome then (false, files)
    else
      (true, { files with
        temporary := files.temporary.map fun file => { file with persisted := some file.content } })
  | .validateOpenFile, fault, files =>
    (checked fault (files.temporary.any (·.isPrivate process.uid)), files)
  | .stillAuthorized, fault, files => (fault.authorized, files)
  | .rename, fault, files =>
    match fault.fails, files.temporary with
    | none, some file =>
      (true, { files with
        state := file
        previous := some (files.previous.getD files.state)
        temporary := none })
    | _, _ => (false, files)
  | .syncDirectory, fault, files =>
    if fault.fails.isSome then (false, files) else (true, { files with previous := none })

/-- No step waits. -/
def performs (process : Process) (a : FileAct) (fault : Fault) (files : Files) :
    Option (FileAns a × Files) := some (perform process a fault files)

/-! ## The store -/

abbrev Step (α : Type) := Prog FileAct FileAns α

def step (a : FileAct) : Step (FileAns a) := Prog.perform a

/-- SRCLINE: provider_store.rs:596-602 -/
def removeStalePrivateTemp : Step (Except ProviderDiagnostic Unit) := do
  if ← step .temporaryExists then
    if let .error diagnostic ← step .validateTemporary then return .error diagnostic
    if !(← step .removeTemporary) then return .error .persistenceFailure
  return .ok ()

/-- Permissions, bytes and sync of the open temporary file.
SRCLINE: provider_store.rs:392-396 -/
def fillTemporary (encoded : List UInt8) : Step Bool := do
  if !(← step .setPermissions) then return false
  if !(← step (.writeAll encoded)) then return false
  step .syncAll

/-- The rename over the state file and the sync of the directory.
SRCLINE: provider_store.rs:414-425 -/
def replaceState : Step (Except ProviderDiagnostic Unit) := do
  if !(← step .rename) then return .error .persistenceFailure
  if !(← step .syncDirectory) then
    step .storePoisoned
    return .error .persistenceFailure
  if !(← step .stillAuthorized) then
    step .storePoisoned
    return .error .persistenceFailure
  return .ok ()

section Store

variable (codec : Codec) (E : Externals) (disk : Disk) (ownerUid : UInt32)

/-- SRCLINE: provider_store.rs:351-370 -/
def readState : Step (Except ProviderDiagnostic ProviderState) := do
  if ← step .loadPoisoned then return .error .unsafeState
  if let .error diagnostic ← step .validateLayout then return .error diagnostic
  match ← step .readToString with
  | .error diagnostic => return .error diagnostic
  | .ok raw =>
    match (codec.decode raw).bind (·.tryFrom E disk) with
    | none => return .error .invalidState
    | some s => return if s.validateForOwner E disk ownerUid then .ok s else .error .invalidState

/-- SRCLINE: provider_store.rs:374-427 -/
def writeStateGuarded (s : ProviderState) : Step (Except ProviderDiagnostic Unit) := do
  if ← step .loadPoisoned then return .error .unsafeState
  if !s.validateForOwner E disk ownerUid then return .error .invalidState
  if let .error diagnostic ← step .validateLayout then return .error diagnostic
  let some encoded := codec.encode s.wire | return .error .persistenceFailure
  if let .error diagnostic ← removeStalePrivateTemp then return .error diagnostic
  if !(← step .createTemporary) then return .error .persistenceFailure
  if !(← fillTemporary encoded) then
    let _ ← step .removeTemporary
    return .error .persistenceFailure
  if let .error diagnostic ← step .validateOpenFile then
    let _ ← step .removeTemporary
    return .error diagnostic
  if !(← step .stillAuthorized) then
    if !(← step .removeTemporary) then return .error .persistenceFailure
    return .error .expiredAccessRequest
  replaceState

end Store

end VaultAccess.Model.Persistence
