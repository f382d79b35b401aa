import VaultAccess.Library.Json
import VaultAccess.Library.Programs
import VaultAccess.Model.Manager
import VaultAccess.Model.Persistence
import VaultAccess.Model.Provider

/-!
# Executions, their leases and recovery

`record`, `forget`, `leases` and `recover_mode` of `src/adapters/supervisor/manager.rs` and
`execute` of `src/adapters/supervisor.rs`, action by action. A provider lives until its
actions stop coming back, which may be anywhere: it recovers and then executes one request
after another, or it only recovers strictly. The directory outlives it. What an action
answers is up to the world, as far as the directory allows it. A provider that stops while
it waits for an answer stops as one that got any answer and took no further action. The
`events` are a history that no action reads.
-/

set_option autoImplicit false

namespace VaultAccess.Model.Leases

open VaultAccess.Library VaultAccess.Model VaultAccess.Model.Manager
open VaultAccess.Model.Persistence (Process PRIVATE_FILE_MODE)

/-- `serde_json::to_vec` of a lease. -/
def encode (lease : Lease) : List UInt8 :=
  Json.toVec (.obj [("name", .str lease.name), ("cgroup", .str lease.cgroup)])

/-- `serde_json::from_reader` for a lease: it reads back what was written. -/
structure Codec where
  decode : List UInt8 → Option Lease
  decodes : ∀ lease, decode (encode lease) = some lease

/-- What does not change in a provider's life. -/
structure Setup where
  process : Process
  pid : UInt32
  config : Config
  codec : Codec

structure File where
  regular : Bool
  uid : UInt32
  mode : UInt32
  content : List UInt8
  deriving DecidableEq, Repr

/-- SRCLINE: manager.rs:268-273, 291-294 -/
def File.isPrivate (uid : UInt32) (file : File) : Bool :=
  file.regular && file.uid = uid && file.mode &&& 0o7777 = PRIVATE_FILE_MODE

/-- What happened. A start counts once it was asked for and was not refused for its name. -/
inductive Event where
  | restarted
  | fault
  | seen (lease : Lease)
  | started (lease : Lease)
  | collided (lease : Lease)
  | unused (lease : Lease)
  | forgot (name : String)
  deriving DecidableEq, Repr

/-- The provider's private directory, and the flag of the running provider. -/
structure Mem where
  files : List (String × File)
  healthy : Bool
  events : List Event
  deriving DecidableEq, Repr

def Mem.initial : Mem := { files := [], healthy := true, events := [] }

namespace Mem

variable (m : Mem)

def present (filename : String) : Bool := m.files.any fun e => e.1 = filename

def log (event : Event) : Mem := { m with events := m.events ++ [event] }

def add (filename : String) (file : File) : Mem := { m with files := m.files ++ [(filename, file)] }

def append (filename : String) (bytes : List UInt8) : Mem :=
  { m with files := m.files.map fun e =>
      if e.1 = filename then (e.1, { e.2 with content := e.2.content ++ bytes }) else e }

def link (filename new : String) : Mem :=
  match m.files.find? fun e => e.1 = filename with
  | none => m
  | some e => m.add new e.2

def delete (filename : String) : Mem := { m with files := m.files.filter fun e => e.1 ≠ filename }

/-- The names of the files that `leases` looks at. -/
def names (config : Config) : List String :=
  (m.files.map Prod.fst).filter fun filename => config.kind filename ≠ .other

end Mem

/-! ## Actions -/

/-- SRCLINE: bridge.rs:44-50 -/
inductive Report where
  | ready
  | execConfirmed
  | outcome (outcome : ExecutionOutcome)
  | reaped
  | failed
  deriving DecidableEq, Repr

inductive StartReply where
  | job
  | unitExists
  | failed
  deriving DecidableEq, Repr

/-- The result of a job, if it is told in time. -/
inductive JobReply where
  | done
  | otherwise
  | untold
  deriving DecidableEq, Repr

/-- An error of the execution's control or of its agent: `UnitCollision` is made by the
start of a unit alone. -/
abbrev Refusal := { error : ExecutionError // error ≠ .unitCollision }

inductive Act where
  | live
  | remaining
  | connect
  | provider
  | random
  | bind (name : String)
  | createNew (filename : String)
  | write (filename : String) (bytes : List UInt8)
  | syncFile
  | hardLink (filename new : String)
  | syncDirectory
  | removeFile (filename : String)
  | readDir
  | symlinkMetadata (filename : String)
  | openFile (filename : String)
  | removeSocket (name : String)
  | listUnits
  | owned (root : String) (lease : Lease)
  | unused (root : String) (lease : Lease)
  | helper (root : String) (lease : Lease)
  | environment
  | startTransientUnit (lease : Lease) (properties : UnitProperties)
  | waitJob
  | expired
  | accept
  | send
  | receive
  | release
  | started
  | recipient
  | poll
  | close
  | loadHealthy
  | storeUnhealthy
  | rounds
  | forever

@[reducible]
def Ans : Act → Type
  | .live | .bind _ | .createNew _ | .syncFile | .hardLink _ _ | .syncDirectory | .removeFile _
  | .removeSocket _ | .expired | .send | .loadHealthy => Bool
  | .remaining | .rounds => ℕ
  | .connect => Option String
  | .provider => Option (String × String × UInt32)
  | .random => Option (Vector UInt8 16)
  | .write _ _ => Option ℕ
  | .readDir => Option (List (Option String))
  | .symlinkMetadata _ | .openFile _ => Option File
  | .listUnits | .environment => Option (List String)
  | .owned _ _ => UnitReply
  | .unused _ _ => Evidence
  | .helper _ _ => Option (String × String × UInt32) × UnitReply × Option String
  | .startTransientUnit _ _ => StartReply
  | .waitJob => JobReply
  | .accept => Option Bool
  | .receive => Option (Option Report)
  | .release | .started | .recipient | .poll => Except Refusal Unit
  | .close | .storeUnhealthy => Unit
  | .forever => Empty

/-- What the world answers to an action; `none` when it does not come back. -/
abbrev Input := (a : Act) → Option (Ans a)

/-- The directory allows the answer. -/
def allowed (config : Config) (m : Mem) : (a : Act) → Ans a → Bool
  | .createNew filename, ok => !ok || !m.present filename
  | .write _ bytes, written => written.all (· ≤ bytes.length)
  | .hardLink filename new, ok => !ok || (m.present filename && !m.present new)
  | .removeFile filename, ok => !ok || m.present filename
  | .readDir, names => names.all fun names =>
    ((names.filterMap id).filter fun filename => config.kind filename ≠ .other).isPerm (m.names config)
  | .symlinkMetadata filename, file | .openFile filename, file =>
    file.all fun file => (filename, file) ∈ m.files
  | .loadHealthy, healthy => healthy = m.healthy
  | _, _ => true

/-- What an action leaves behind. -/
def effect (S : Setup) (m : Mem) : (a : Act) → Ans a → Mem
  | .createNew filename, ok =>
    if ok then m.add filename ⟨true, S.process.uid, PRIVATE_FILE_MODE &&& ~~~S.process.umask, []⟩
    else m.log .fault
  | .write filename bytes, written => match written with
    | none => m.log .fault
    | some n => m.append filename (bytes.take n)
  | .syncFile, ok | .syncDirectory, ok => if ok then m else m.log .fault
  | .hardLink filename new, ok => if ok then m.link filename new else m.log .fault
  | .removeFile filename, ok =>
    if ok then match S.config.kind filename with
      | .lease name => (m.delete filename).log (.forgot name)
      | _ => m.delete filename
    else m.log .fault
  | .readDir, names => match names with
    | none => m.log .fault
    | some names => if none ∈ names then m.log .fault else m
  | .symlinkMetadata _, file | .openFile _, file => if file.isNone then m.log .fault else m
  | .owned root lease, reply => match Manager.owned S.config root lease reply with
    | .ok (some _) => m.log (.seen lease)
    | _ => m
  | .unused root lease, evidence => match Manager.unused S.config root lease evidence with
    | .ok true => m.log (.unused lease)
    | _ => m
  | .startTransientUnit lease _, reply => match reply with
    | .unitExists => m.log (.collided lease)
    | _ => m.log (.started lease)
  | .storeUnhealthy, _ => { m with healthy := false }
  | _, _ => m

def perform (S : Setup) (a : Act) (input : Input) (m : Mem) : Option (Ans a × Mem) :=
  match input a with
  | none => none
  | some answer => if allowed S.config m a answer then some (answer, effect S m a answer) else none

abbrev Steps (α : Type) := Prog Act Ans α

def step (a : Act) : Steps (Ans a) := Prog.perform a

/-- A loop that goes round at most so many times; it does not come back where it would go
on. -/
def roundsOf {σ α : Type} (body : σ → Steps (σ ⊕ α)) : ℕ → σ → Steps α
  | 0, _ => Prog.act .forever fun answer => nomatch answer
  | n + 1, s => do
    match ← body s with
    | .inl s => roundsOf body n s
    | .inr result => return result

/-- A loop: the world says how often it goes round. -/
def loop {σ α : Type} (s : σ) (body : σ → Steps (σ ⊕ α)) : Steps α := do
  let n ← step .rounds
  roundsOf body n s

/-! ## Leases -/

/-- `Write::write_all`; every write takes at least one byte.
SRCLINE: manager.rs:233-234 -/
def writeAll (filename : String) : ℕ → List UInt8 → Steps Bool
  | 0, bytes => return bytes.isEmpty
  | fuel + 1, bytes => do
    if bytes.isEmpty then return true
    match ← step (.write filename bytes) with
    | none => return false
    | some 0 => return false
    | some n => writeAll filename fuel (bytes.drop n)

section Leases

variable (S : Setup)

/-- From the bytes to the synced directory.
SRCLINE: manager.rs:232-242 -/
def publish (lease : Lease) (staging : String) : Steps (Except ExecutionError Unit) := do
  if !(← writeAll staging (encode lease).length (encode lease)) then return .error .managerUnavailable
  if !(← step .syncFile) then return .error .managerUnavailable
  if !(← step (.hardLink staging (leasePath lease.name))) then return .error .managerUnavailable
  if !(← step .syncDirectory) then return .error .managerUnavailable
  return .ok ()

/-- SRCLINE: manager.rs:218-251 -/
def record (lease : Lease) : Steps (Except ExecutionError Unit) := do
  if !S.config.ownsName lease.name then return .error .cleanupUncertain
  let some random ← step .random | return .error .managerUnavailable
  let staging := stagingPath lease.name random
  if !(← step (.createNew staging)) then return .error .managerUnavailable
  let result ← publish lease staging
  let removed ← step (.removeFile staging)
  if let .error error := result then return .error error
  if !removed then return .error .managerUnavailable
  if !(← step .syncDirectory) then return .error .managerUnavailable
  return .ok ()

/-- SRCLINE: manager.rs:252-257 -/
def forget (lease : Lease) : Steps (Except ExecutionError Unit) := do
  if !(← step (.removeFile (leasePath lease.name))) then return .error .managerUnavailable
  if !(← step .syncDirectory) then return .error .managerUnavailable
  return .ok ()

/-- A staging file that an earlier provider left.
SRCLINE: manager.rs:266-279 -/
def sweep (filename : String) : Steps (Except ExecutionError Unit) := do
  let some metadata ← step (.symlinkMetadata filename) | return .error .managerUnavailable
  if !metadata.isPrivate S.process.uid then return .error .cleanupUncertain
  if !(← step (.removeFile filename)) then return .error .managerUnavailable
  if !(← step .syncDirectory) then return .error .managerUnavailable
  return .ok ()

/-- SRCLINE: manager.rs:287-307 -/
def readLease (filename name : String) : Steps (Except ExecutionError Lease) := do
  let some file ← step (.openFile filename) | return .error .managerUnavailable
  if !file.isPrivate S.process.uid || 4096 < file.content.length then return .error .cleanupUncertain
  let some lease := S.codec.decode file.content | return .error .managerUnavailable
  if lease.name ≠ name then return .error .cleanupUncertain
  return .ok lease

/-- SRCLINE: manager.rs:260-308 -/
def leasesFrom : List (Option String) → List Lease → Steps (Except ExecutionError (List Lease))
  | [], leases => return .ok leases
  | none :: _, _ => return .error .managerUnavailable
  | some filename :: rest, leases => match S.config.kind filename with
    | .staging => do
      match ← sweep S filename with
      | .error error => return .error error
      | .ok () => leasesFrom rest leases
    | .lease name => do
      match ← readLease S filename name with
      | .error error => return .error error
      | .ok lease => leasesFrom rest (leases ++ [lease])
    | .other => leasesFrom rest leases

/-- SRCLINE: manager.rs:258-310 -/
def leases : Steps (Except ExecutionError (List Lease)) := do
  let some names ← step .readDir | return .error .managerUnavailable
  leasesFrom S names []

/-! ## Recovery -/

/-- SRCLINE: manager.rs:682-697 -/
def recoverUnits (root : String) : List String → List Lease → Steps (Except ExecutionError (List Lease))
  | [], leases => return .ok leases
  | name :: rest, leases =>
    if !S.config.ownsName name || leases.any (fun lease => lease.name = name) then
      recoverUnits root rest leases
    else do
      match Manager.owned S.config root (leaseOf root name) (← step (.owned root (leaseOf root name))) with
      | .ok (some _) =>
        match ← record S (leaseOf root name) with
        | .error error => return .error error
        | .ok () => recoverUnits root rest (leases ++ [leaseOf root name])
      | .ok none | .error .cleanupUncertain => recoverUnits root rest leases
      | .error error => return .error error

/-- SRCLINE: manager.rs:698-716 -/
def recoverLeases (strict : Bool) (root : String) : List Lease → Steps (Except ExecutionError Unit)
  | [] => return .ok ()
  | lease :: rest => do
    match Manager.unused S.config root lease (← step (.unused root lease)), strict with
    | .error error, true => return .error error
    | .ok true, _ =>
      match ← forget lease with
      | .error error => return .error error
      | .ok () =>
        if ← step (.removeSocket lease.name) then recoverLeases strict root rest
        else return .error .managerUnavailable
    | _, _ => recoverLeases strict root rest

/-- The manager's root group, when the manager can be used.
SRCLINE: manager.rs:357-402 -/
def connect : Steps (Except ExecutionError String) := do
  match ← step .connect with
  | none => return .error .managerUnavailable
  | some root => return if validCgroup root then .ok root else .error .managerUnavailable

/-- SRCLINE: manager.rs:674-717 -/
def recoverMode (strict : Bool) (root : String) : Steps (Except ExecutionError Unit) := do
  match ← leases S with
  | .error error => return .error error
  | .ok leases =>
    let some units ← step .listUnits | return .error .managerUnavailable
    match ← recoverUnits S root units leases with
    | .error error => return .error error
    | .ok leases => recoverLeases S strict root leases

/-- SRCLINE: supervisor.rs:109-117 -/
def recover (strict : Bool) : Steps (Except ExecutionError Unit) := do
  match ← connect with
  | .error error => return .error error
  | .ok root => recoverMode S strict root

end Leases

/-! ## Executions -/

section Execution

variable (S : Setup)

/-- SRCLINE: manager.rs:438-455 -/
def provider : Steps (Except ExecutionError Unit) := do
  return isProvider S.config S.pid (← step .provider)

/-- SRCLINE: manager.rs:564-620 -/
def start (lease : Lease) : Steps (Except ExecutionError Unit) := do
  let remaining ← step .remaining
  let some environment ← step .environment | return .error .managerUnavailable
  match helperUnsetEnvironment environment with
  | .error error => return .error error
  | .ok unset =>
    match properties S.config lease.name S.pid remaining unset with
    | .error error => return .error error
    | .ok properties =>
      match ← step (.startTransientUnit lease properties) with
      | .unitExists => return .error .unitCollision
      | .failed => return .error .managerUnavailable
      | .job =>
        match ← step .waitJob with
        | .done => return .ok ()
        | .otherwise => return .error .executionFailed
        | .untold => return .error .managerUnavailable

/-- SRCLINE: manager.rs:536-563 -/
def helper (root : String) (lease : Lease) (identity : Identity) : Steps (Except ExecutionError Unit) := do
  let (provider, reply, cgroup) ← step (.helper root lease)
  return Manager.helper S.config root lease S.pid identity provider reply cgroup

/-- The channel to the helper.
SRCLINE: supervisor.rs:171-184 -/
def acceptChannel : Steps (Except ExecutionError Unit) := loop () fun _ => do
  if !(← step .live) then return .inr (.error .cancelled)
  if ← step .expired then return .inr (.error .executionFailed)
  match ← step .accept with
  | none => return .inr (.error .executionFailed)
  | some true => return .inr (.ok ())
  | some false => return .inl ()

/-- SRCLINE: supervisor.rs:205-220 -/
def awaitReady : Steps (Except ExecutionError Unit) := loop () fun _ => do
  if !(← step .live) then return .inr (.error .cancelled)
  if ← step .expired then return .inr (.error .executionFailed)
  match ← step .receive with
  | none => return .inr (.error .executionFailed)
  | some none => return .inl ()
  | some (some .ready) => return .inr (.ok ())
  | some (some _) => return .inr (.error .executionFailed)

/-- An answer of the control or of the agent. -/
def asked (a : Act) (h : Ans a = Except Refusal Unit) : Steps (Except ExecutionError Unit) := do
  match cast h (← step a) with
  | .ok () => return .ok ()
  | .error error => return .error error.val

/-- What follows a report.
SRCLINE: supervisor.rs:255-268 -/
def afterReport (agent executed : Bool) : Steps (Except ExecutionError Bool) := do
  if !(← step .live) then return .error .cancelled
  if !executed then
    if ← step .expired then return .error .executionFailed
  if executed && agent then
    if let .error error ← asked .poll rfl then return .error error
  match ← provider S with
  | .error error => return .error error
  | .ok () => return .ok executed

/-- The helper confirmed the execution.
SRCLINE: supervisor.rs:237-247 -/
def confirmed (agent : Bool) : Steps (Except ExecutionError Unit) := do
  match ← asked .started rfl with
  | .error error => return .error error
  | .ok () => if agent then asked .recipient rfl else return .ok ()

/-- From the release to the outcome.
SRCLINE: supervisor.rs:230-270 -/
def observe (agent : Bool) : Steps (Except ExecutionError ExecutionOutcome) := loop false fun executed => do
  let after (executed : Bool) : Steps (Bool ⊕ Except ExecutionError ExecutionOutcome) := do
    match ← afterReport S agent executed with
    | .error error => return .inr (.error error)
    | .ok executed => return .inl executed
  match ← step .receive with
  | none => return .inr (.error .executionFailed)
  | some none => after executed
  | some (some .execConfirmed) =>
    if executed then return .inr (.error .executionFailed)
    else match ← confirmed agent with
      | .error error => return .inr (.error error)
      | .ok () => after true
  | some (some (.outcome outcome)) =>
    return .inr (if executed then .ok outcome else .error .executionFailed)
  | some (some _) => return .inr (.error .executionFailed)

/-- How far an execution came: whether there was a channel, whether it was released, and
its result. -/
structure Launched where
  channel : Bool
  released : Bool
  result : Except ExecutionError ExecutionOutcome

/-- From the channel to the release and what follows it.
SRCLINE: supervisor.rs:188-270 -/
def transfer (root : String) (lease : Lease) (identity : Identity) (agent : Bool) : Steps Launched := do
  if let .error error ← helper S root lease identity then return ⟨true, false, .error error⟩
  if !(← step .live) then return ⟨true, false, .error .cancelled⟩
  if !(← step .send) then return ⟨true, false, .error .executionFailed⟩
  if let .error error ← awaitReady then return ⟨true, false, .error error⟩
  if let .error error ← helper S root lease identity then return ⟨true, false, .error error⟩
  if let .error error ← asked .release rfl then return ⟨true, false, .error error⟩
  return ⟨true, true, ← observe S agent⟩

/-- What follows the start of the unit.
SRCLINE: supervisor.rs:165-270 -/
def launched (root : String) (lease : Lease) (agent : Bool) : Steps Launched := do
  match Manager.owned S.config root lease (← step (.owned root lease)) with
  | .error error => return ⟨false, false, .error error⟩
  | .ok none => return ⟨false, false, .error .executionFailed⟩
  | .ok (some identity) =>
    if let .error error ← helper S root lease identity then return ⟨false, false, .error error⟩
    if let .error error ← acceptChannel then return ⟨false, false, .error error⟩
    transfer S root lease identity agent

/-- SRCLINE: supervisor.rs:157-271 -/
def launch (root : String) (lease : Lease) (agent : Bool) : Steps Launched := do
  if !(← step .live) then return ⟨false, false, .error .cancelled⟩
  match ← start S lease with
  | .error error => return ⟨false, false, .error error⟩
  | .ok () => launched S root lease agent

/-- SRCLINE: ports.rs:165-169 -/
structure Supervised where
  outcome : Except ExecutionError ExecutionOutcome
  cleanup : CleanupEvidence
  helperReaped : Bool

def notStarted (error : ExecutionError) : Supervised :=
  { outcome := .error error, cleanup := .notStarted, helperReaped := false }

/-- The lease goes when the unit is unused; a failure ends the provider's health. -/
def forgetOrUnhealthy (lease : Lease) : Steps Unit := do
  match ← forget lease with
  | .ok () => return ()
  | .error _ => step .storeUnhealthy

/-- SRCLINE: supervisor.rs:298-306 -/
def awaitUnused (root : String) (lease : Lease) : Steps Bool := loop () fun _ => do
  match Manager.unused S.config root lease (← step (.unused root lease)) with
  | .ok true => return .inr true
  | _ => if ← step .expired then return .inr false else return .inl ()

/-- What follows an execution whose unit may have been started.
SRCLINE: supervisor.rs:281-320 -/
def finish (root : String) (lease : Lease) (launched : Launched) : Steps Supervised := do
  match launched.result with
  | .error .managerUnavailable => step .storeUnhealthy
  | _ => pure ()
  let reaped ← if launched.channel then step .receive else pure none
  let unused ← awaitUnused S root lease
  if unused then forgetOrUnhealthy lease
  return {
    outcome := match launched.released, launched.result with
      | true, .error _ => .error .observationLost
      | _, result => result
    cleanup := if unused then .reaped else .detached
    helperReaped := reaped = some (some .reaped) }

/-- SRCLINE: supervisor.rs:118-321 -/
def execute (agent : Bool) : Steps Supervised := do
  if !(← step .loadHealthy) then return notStarted .cancelled
  if !(← step .live) then return notStarted .cancelled
  match ← connect with
  | .error error => return notStarted error
  | .ok root =>
    if let .error error ← provider S then return notStarted error
    let some random ← step .random | return notStarted .managerUnavailable
    let lease := leaseOf root (S.config.name random)
    if !(← step (.bind lease.name)) then return notStarted .unavailable
    if let .error error ← record S lease then return notStarted error
    let launched ← launch S root lease agent
    if agent then step .close
    match launched.result with
    | .error .unitCollision =>
      forgetOrUnhealthy lease
      return notStarted .unitCollision
    | _ => finish S root lease launched

/-- One request after another; each says whether it has an agent. -/
def executions : List Bool → Steps Unit
  | [] => return ()
  | agent :: rest => do
    let _ ← execute S agent
    executions rest

/-! ## Lives -/

/-- A daemon with the requests of its life, or the owner's reconciliation. -/
inductive Life where
  | daemon (requests : List Bool)
  | reconcile
  deriving DecidableEq, Repr

/-- SRCLINE: vaultwarden-accessd.rs:144-160; supervisor.rs:71-92 -/
def Life.program : Life → Steps Unit
  | .daemon requests => do
    match ← recover S false with
    | .error _ => return ()
    | .ok () => executions S requests
  | .reconcile => do
    let _ ← recover S true
    return ()

/-- A life that stops where its inputs do. -/
def Mem.live (m : Mem) (life : Life × List Input) : Mem :=
  (life.1.program S |>.runFor (perform S) life.2 { m with healthy := true, events := m.events ++ [.restarted] }).2

/-- One life after another. -/
def Mem.run (m : Mem) (lives : List (Life × List Input)) : Mem := lives.foldl (Mem.live S) m

end Execution

end VaultAccess.Model.Leases
