import VaultAccess.Model.Machine

/-!
# The service manager and its observation

`src/adapters/supervisor/manager.rs`: the names of transient units, of their leases and of
staging files, the properties a unit is started with, and what the answers of the service
manager and an inventory of processes are taken to show. Nothing here changes anything.
-/

set_option autoImplicit false

namespace VaultAccess.Model.Manager

open VaultAccess.Library VaultAccess.Library.Text VaultAccess.Model

/-! ## Names -/

/-- `space` are the 16 hexadecimal digits of the provider's digest.
SRCLINE: manager.rs:135-169 -/
structure Config where
  provider : String
  helper : String
  runtime : String
  space : String
  deriving DecidableEq, Repr

/-- SRCLINE: manager.rs:312-315 -/
structure Lease where
  name : String
  cgroup : String
  deriving DecidableEq, Repr

def Config.unitPrefix (config : Config) : String := "vw-access-" ++ config.space ++ "-"

/-- 32 lowercase hexadecimal digits. -/
def isNonce (text : List Char) : Bool := text.length = 32 && text.all isLowerHex

/-- The digits of 16 random bytes. -/
def nonceOf (random : Vector UInt8 16) : String := String.ofList (hex random.toList)

/-- `str::rsplit_once` at a character. -/
def rsplitOnce (separator : Char) (text : List Char) : Option (List Char × List Char) :=
  let tail := (text.reverse.takeWhile (· ≠ separator)).reverse
  if separator ∈ text then some (text.take (text.length - tail.length - 1), tail) else none

namespace Config

variable (config : Config)

/-- SRCLINE: manager.rs:170-178 -/
def ownsName (name : String) : Bool :=
  match name.toList.dropPrefix? config.unitPrefix.toList with
  | none => false
  | some rest => match rest.dropSuffix? ".service".toList with
    | none => false
    | some digits => isNonce digits

/-- SRCLINE: manager.rs:179-190 -/
def name (random : Vector UInt8 16) : String := config.unitPrefix ++ nonceOf random ++ ".service"

/-- The digits of a unit's name.
SRCLINE: manager.rs:191-195 -/
def socket (name : String) : String :=
  String.ofList (((name.toList.drop config.unitPrefix.length).take
    (name.length - 8 - config.unitPrefix.length)) ++ ".sock".toList)

/-- SRCLINE: manager.rs:206-217 -/
def ownsStaging (filename : String) : Bool :=
  match filename.toList.dropPrefix? ".staging.".toList with
  | none => false
  | some rest => match rsplitOnce '.' rest with
    | none => false
    | some (name, nonce) => config.ownsName (String.ofList name) && isNonce nonce

end Config

/-- SRCLINE: manager.rs:196-198 -/
def leasePath (name : String) : String := name ++ ".json"

/-- SRCLINE: manager.rs:199-205 -/
def stagingPath (name : String) (random : Vector UInt8 16) : String :=
  ".staging." ++ name ++ "." ++ nonceOf random

/-- What `leases` takes a file of the directory for.
SRCLINE: manager.rs:266-289 -/
inductive Kind where
  | staging
  | lease (name : String)
  | other
  deriving DecidableEq, Repr

def Config.kind (config : Config) (filename : String) : Kind :=
  if config.ownsStaging filename then .staging
  else match filename.toList.dropSuffix? ".json".toList with
    | none => .other
    | some name => if config.ownsName (String.ofList name) then .lease (String.ofList name) else .other

/-! ## The properties of a unit -/

/-- SRCLINE: manager.rs:27-79 -/
def HELPER_UNSET : List String :=
  ["LD_PRELOAD", "LD_LIBRARY_PATH", "LD_AUDIT", "LD_DEBUG", "LD_DEBUG_OUTPUT", "LD_PROFILE",
    "LD_PROFILE_OUTPUT", "LD_ORIGIN_PATH", "LD_BIND_NOW", "LD_BIND_NOT", "LD_DYNAMIC_WEAK", "LD_HWCAP_MASK",
    "LD_SHOW_AUXV", "LD_USE_LOAD_BIAS", "LD_TRACE_LOADED_OBJECTS", "GLIBC_TUNABLES", "GCONV_PATH", "LOCPATH",
    "NLSPATH", "MALLOC_CHECK_", "MALLOC_TRACE", "MALLOC_PERTURB_", "RUST_BACKTRACE", "RUST_LIB_BACKTRACE",
    "RUST_LOG", "TMPDIR", "PATH", "LANG", "LC_ALL", "HOME", "USER", "LOGNAME", "SHELL", "INVOCATION_ID",
    "JOURNAL_STREAM", "SYSTEMD_EXEC_PID", "NOTIFY_SOCKET", "LISTEN_PID", "LISTEN_FDS", "LISTEN_FDNAMES",
    "WATCHDOG_PID", "WATCHDOG_USEC", "CREDENTIALS_DIRECTORY", "RUNTIME_DIRECTORY", "STATE_DIRECTORY",
    "CACHE_DIRECTORY", "LOGS_DIRECTORY", "CONFIGURATION_DIRECTORY", "MEMORY_PRESSURE_WATCH",
    "MEMORY_PRESSURE_WRITE", "NSS_DYNAMIC_BYPASS"]

def environmentStart (c : Char) : Bool := c = '_' || isAsciiLowercase c || isAsciiUppercase c

/-- SRCLINE: manager.rs:80-87 -/
def environmentName (name : String) : Bool :=
  !name.isEmpty && decide (name.utf8ByteSize ≤ 255) &&
    (name.toList.take 1).all environmentStart &&
    (name.toList.drop 1).all fun c => environmentStart c || isAsciiDigit c

/-- The name before the first `=`. -/
def assignmentName (assignment : String) : Option String :=
  if '=' ∈ assignment.toList then some (String.ofList (assignment.toList.takeWhile (· ≠ '='))) else none

/-- SRCLINE: manager.rs:88-104 -/
def helperUnsetEnvironment (environment : List String) : Except ExecutionError (List String) :=
  if 4096 < environment.length then .error .managerUnavailable
  else match environment.mapM assignmentName with
    | none => .error .managerUnavailable
    | some names =>
      if names.all environmentName then .ok ((HELPER_UNSET ++ names).dedup.mergeSort (· ≤ ·))
      else .error .managerUnavailable

/-- SRCLINE: manager.rs:105-111 -/
def validHelperUnset (names : List String) : Bool :=
  decide (names.length ≤ 4096 + HELPER_UNSET.length) && names.all environmentName &&
    HELPER_UNSET.all names.contains

/-- `str::parse::<u32>`. -/
def parseU32 (value : String) : Option UInt32 :=
  let digits := match value.toList with
    | '+' :: rest => rest
    | chars => chars
  if digits.isEmpty || !digits.all isAsciiDigit then none
  else
    let number := digits.foldl (fun (n : ℕ) c => n * 10 + (c.toNat - '0'.toNat)) 0
    if number < 2 ^ 32 then some (UInt32.ofNat number) else none

/-- One command of `ExecStart`. -/
structure ObservedExec where
  path : String
  argv : List String
  ignoreFailure : Bool
  deriving DecidableEq, Repr

/-- SRCLINE: manager.rs:742-766 -/
structure UnitProperties where
  description : String
  unsetEnvironment : List String
  execStart : List ObservedExec
  slice : String
  serviceType : String
  exitType : String
  killMode : String
  collectMode : String
  sendSIGKILL : Bool
  restart : String
  timeoutStartUSec : ℕ
  timeoutStopUSec : ℕ
  runtimeMaxUSec : ℕ
  standardInput : String
  standardOutput : String
  standardError : String
  limitCORE : ℕ
  limitCORESoft : ℕ
  noNewPrivileges : Bool
  deriving DecidableEq, Repr

/-- The greatest number of 64 bits. -/
def U64_MAX : ℕ := 2 ^ 64 - 1

/-- `micros` is what remains of the execution's time, `pid` the provider's process.
SRCLINE: manager.rs:723-768 -/
def properties (config : Config) (name : String) (pid : UInt32) (micros : ℕ) (unset : List String) :
    Except ExecutionError UnitProperties :=
  if !validHelperUnset unset then .error .managerUnavailable
  else if U64_MAX < micros then .error .managerUnavailable
  else if micros = 0 then .error .cancelled
  else .ok {
    description := "Vaultwarden protected execution"
    unsetEnvironment := unset
    execStart := [⟨config.helper,
      [config.helper, config.runtime ++ "/" ++ config.socket name, toString pid.toNat], false⟩]
    slice := "app.slice"
    serviceType := "exec"
    exitType := "cgroup"
    killMode := "none"
    collectMode := "inactive-or-failed"
    sendSIGKILL := false
    restart := "no"
    timeoutStartUSec := 5000000
    timeoutStopUSec := 2000000
    runtimeMaxUSec := U64_MAX
    standardInput := "null"
    standardOutput := "null"
    standardError := "null"
    limitCORE := 0
    limitCORESoft := 0
    noNewPrivileges := true }

/-! ## What the service manager shows -/

/-- The unit's properties as they are read one by one; `none` where the reading fails. -/
structure UnitView where
  activeState : Option String
  isTransient : Option Bool
  id : Option String
  collectMode : Option String
  bindsTo : Option (List String)
  partOf : Option (List String)
  execStart : Option (List ObservedExec)
  killMode : Option String
  restart : Option String
  serviceType : Option String
  exitType : Option String
  standardInput : Option String
  standardOutput : Option String
  standardError : Option String
  unsetEnvironment : Option (List String)
  sendSIGKILL : Option Bool
  environment : Option (List String)
  timeoutStartUSec : Option ℕ
  timeoutStopUSec : Option ℕ
  runtimeMaxUSec : Option ℕ
  controlGroup : Option String
  invocation : Option (List UInt8)
  mainPid : Option UInt32
  deriving DecidableEq, Repr

/-- SRCLINE: manager.rs:316-319 -/
structure Identity where
  pid : UInt32
  invocation : List UInt8
  deriving DecidableEq, Repr

/-- SRCLINE: manager.rs:769-774 -/
def validCgroup (path : String) : Bool :=
  path.toList.head? = some '/' && decide (path.utf8ByteSize < 2048) &&
    !((split '/' path.toList).any fun part => part = ['.'] || part = ['.', '.']) &&
    !path.toList.any isControl

/-- SRCLINE: manager.rs:456-461 -/
def leaseOf (root name : String) : Lease := { name, cgroup := root ++ "/app.slice/" ++ name }

/-- A property, or the failure of its reading. -/
def get {α : Type} (value : Option α) : Except ExecutionError α :=
  match value with
  | none => .error .managerUnavailable
  | some value => .ok value

/-- A property that must have a value. -/
def expects {α : Type} [DecidableEq α] (value : Option α) (expected : α) : Except ExecutionError Unit := do
  if (← get value) ≠ expected then .error .cleanupUncertain

/-- SRCLINE: manager.rs:483-500 -/
def ownsExec (config : Config) (name : String) (exec : List ObservedExec) : Bool :=
  match exec with
  | [⟨path, [command, socket, pid], ignored⟩] =>
    path = config.helper && command = config.helper && socket = config.runtime ++ "/" ++ config.socket name &&
      (parseU32 pid).any (· ≠ 0) && !ignored
  | _ => false

/-- The ownership contract of a unit that is loaded.
SRCLINE: manager.rs:473-533 -/
def ownedView (config : Config) (lease : Lease) (view : UnitView) : Except ExecutionError Identity := do
  expects view.isTransient true
  expects view.id lease.name
  expects view.collectMode "inactive-or-failed"
  expects view.bindsTo []
  expects view.partOf []
  let exec ← get view.execStart
  if !ownsExec config lease.name exec then .error .cleanupUncertain
  expects view.killMode "none"
  expects view.restart "no"
  expects view.serviceType "exec"
  expects view.exitType "cgroup"
  expects view.standardInput "null"
  expects view.standardOutput "null"
  expects view.standardError "null"
  if !validHelperUnset (← get view.unsetEnvironment) then .error .cleanupUncertain
  expects view.sendSIGKILL false
  expects view.environment []
  expects view.timeoutStartUSec 5000000
  expects view.timeoutStopUSec 2000000
  expects view.runtimeMaxUSec U64_MAX
  let controlGroup ← get view.controlGroup
  if !controlGroup.isEmpty && controlGroup ≠ lease.cgroup then .error .cleanupUncertain
  let invocation ← get view.invocation
  let pid ← get view.mainPid
  return { pid, invocation }

/-- `GetUnit`: no answer, no such unit, or a unit. -/
abbrev UnitReply := Option (Option UnitView)

/-- SRCLINE: manager.rs:462-535 -/
def owned (config : Config) (root : String) (lease : Lease) (reply : UnitReply) :
    Except ExecutionError (Option Identity) := do
  if !config.ownsName lease.name || lease.cgroup ≠ (leaseOf root lease.name).cgroup then
    .error .cleanupUncertain
  match ← get reply with
  | none => return none
  | some view => return some (← ownedView config lease view)

/-! ## The inventory of processes -/

/-- One file of a process: its text, or it is gone, or the reading fails. -/
inductive Reading where
  | text (text : String)
  | missing
  | failed
  deriving DecidableEq, Repr

/-- One entry of `/proc` as it is met; a name is `none` where it is no text. -/
structure ProcEntry where
  hasBudget : Bool
  entry : Option (Option String × Reading × Reading × Reading)
  deriving DecidableEq, Repr

/-- SRCLINE: manager.rs:775-781 -/
def belongs (observed cgroup : String) : Bool :=
  let observed := (observed.toList.dropSuffix? " (deleted)".toList).getD observed.toList
  observed = cgroup.toList ||
    match observed.dropPrefix? cgroup.toList with
    | none => false
    | some suffix => suffix.head? = some '/'

/-- `char::is_whitespace`. -/
def isWhitespace (c : Char) : Bool :=
  let n := c.toNat
  (9 ≤ n && n ≤ 13) || n = 32 || n = 0x85 || n = 0xA0 || n = 0x1680 || (0x2000 ≤ n && n ≤ 0x200A) ||
    n = 0x2028 || n = 0x2029 || n = 0x202F || n = 0x205F || n = 0x3000

/-- `str::split_whitespace`. -/
def splitWhitespace (text : List Char) : List (List Char) :=
  (text.splitOnP isWhitespace).filter fun part => !part.isEmpty

/-- What follows the last `") "`. -/
def afterParenthesis : List Char → Option (List Char)
  | ')' :: ' ' :: rest => some ((afterParenthesis rest).getD rest)
  | _ :: rest => afterParenthesis rest
  | [] => none

/-- SRCLINE: manager.rs:782-784 -/
def startTime (stat : String) : Option (List Char) :=
  (afterParenthesis stat.toList).bind fun fields => (splitWhitespace fields)[19]?

/-- `str::lines`. -/
def lines (text : String) : List (List Char) :=
  let parts := split '\n' text.toList
  let parts := if parts.getLast? = some [] then parts.dropLast else parts
  parts.map fun part => if part.getLast? = some '\r' then part.dropLast else part

/-- The groups of a process in the unified hierarchy. -/
def unifiedGroups (groups : String) : List (List Char) :=
  (lines groups).filterMap (·.dropPrefix? "0::".toList)

def isNumber (name : String) : Bool := !name.isEmpty && name.toList.all isAsciiDigit

/-- One process of the inventory: `true` when it is a member of the group.
SRCLINE: manager.rs:812-845 -/
def inGroup (cgroup : String) (before groups after : Reading) : Except ExecutionError Bool :=
  match before with
  | .failed => .error .cleanupUncertain
  | .missing => .ok false
  | .text before => match groups with
    | .failed => .error .cleanupUncertain
    | .missing => .ok false
    | .text groups => match after with
      | .failed => .error .cleanupUncertain
      | .missing => .ok false
      | .text after => match startTime before, startTime after with
        | some before, some after =>
          if before ≠ after then .error .cleanupUncertain
          else if (unifiedGroups groups).any fun path => belongs (String.ofList path) cgroup then .ok true
          else if (unifiedGroups groups).isEmpty then .error .cleanupUncertain
          else .ok false
        | _, _ => .error .cleanupUncertain

/-- SRCLINE: manager.rs:800-850 -/
def procEmptyFrom (cgroup : String) (hasBudget : Bool) : List ProcEntry → Except ExecutionError Bool
  | [] => if hasBudget then .ok true else .error .cleanupUncertain
  | e :: rest =>
    if !e.hasBudget then .error .cleanupUncertain
    else match e.entry with
      | none => .error .managerUnavailable
      | some (name, before, groups, after) =>
        if !name.any isNumber then procEmptyFrom cgroup hasBudget rest
        else match inGroup cgroup before groups after with
          | .error error => .error error
          | .ok true => .ok false
          | .ok false => procEmptyFrom cgroup hasBudget rest

/-- SRCLINE: manager.rs:792-851 -/
def procEmpty (cgroup : String) (inventory : Option (List ProcEntry)) (hasBudget : Bool) :
    Except ExecutionError Bool :=
  if !validCgroup cgroup then .error .cleanupUncertain
  else match inventory with
    | none => .error .managerUnavailable
    | some entries => procEmptyFrom cgroup hasBudget entries

/-- What `unused` reads: the unit twice, and the processes. -/
structure Evidence where
  first : UnitReply
  second : UnitReply
  inventory : Option (List ProcEntry)
  hasBudget : Bool
  deriving DecidableEq, Repr

/-- SRCLINE: manager.rs:649-666 -/
def unused (config : Config) (root : String) (lease : Lease) (evidence : Evidence) :
    Except ExecutionError Bool := do
  let _ ← owned config root lease evidence.first
  match ← get evidence.second with
  | none => procEmpty lease.cgroup evidence.inventory evidence.hasBudget
  | some view =>
    let active ← get view.activeState
    if active ≠ "inactive" && active ≠ "failed" then return false
    procEmpty lease.cgroup evidence.inventory evidence.hasBudget

/-- The unit of the provider's process: its name, its state and its main process.
SRCLINE: manager.rs:438-455 -/
def isProvider (config : Config) (pid : UInt32) (reply : Option (String × String × UInt32)) :
    Except ExecutionError Unit :=
  match reply with
  | none => .error .managerUnavailable
  | some (id, active, mainPid) =>
    if id ≠ config.provider || active ≠ "active" || mainPid ≠ pid then .error .managerUnavailable
    else .ok ()

/-- SRCLINE: manager.rs:536-563 -/
def helper (config : Config) (root : String) (lease : Lease) (pid : UInt32) (identity : Identity)
    (provider : Option (String × String × UInt32)) (reply : UnitReply) (cgroup : Option String) :
    Except ExecutionError Unit := do
  isProvider config pid provider
  match ← owned config root lease reply with
  | none => .error .executionFailed
  | some current =>
    if identity.pid = 0 || identity.invocation.length ≠ 16 || identity.invocation.all (· = 0) ||
        current.pid ≠ identity.pid || current.invocation ≠ identity.invocation then .error .executionFailed
    let cgroup ← get cgroup
    if !(lines cgroup).contains ("0::" ++ lease.cgroup).toList then .error .executionFailed

end VaultAccess.Model.Manager
