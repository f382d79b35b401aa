import VaultAccess.Library.Attempts
import VaultAccess.Library.Json
import VaultAccess.Library.Text
import VaultAccess.Model.Access
import VaultAccess.Model.Machine
import VaultAccess.Model.Protocol

/-!
# Request-local agent resources

The cleanup and the recovery of `src/adapters/ssh_material.rs`, system call by system call.
No other process changes the directories, so what a descriptor shows is what was opened. A
call may fail, and the process may end at any call. A directory that is not there yet is one
without entries.
-/

set_option autoImplicit false

namespace VaultAccess.Model.SshMaterial

open VaultAccess.Library VaultAccess.Library.Text VaultAccess.Model

/-- The directories with a directory for each request. -/
inductive Tree where
  | agents
  | requests
  deriving DecidableEq, Repr

/-- The directories, with those of the requests. -/
inductive Place where
  | top (tree : Tree)
  | sockets
  | inside (tree : Tree) (leaf : String)
  deriving DecidableEq, Repr

abbrev Path := Place × String

inductive Kind where
  | file
  | directory
  | socket
  | other
  deriving DecidableEq, Repr

/-- What a connection to a socket gets; `pending` is `EINPROGRESS` or `EAGAIN`. -/
inductive Connection where
  | accepted
  | pending
  | refused
  | failed
  deriving DecidableEq, Repr

/-- The device and the inode. -/
abbrev Identity := UInt64 × UInt64

structure Object where
  kind : Kind
  /-- Its user is the effective one. -/
  owned : Bool
  mode : ℕ
  nlink : ℕ
  identity : Identity
  content : List UInt8
  connection : Connection
  deriving DecidableEq, Repr

/-- The directories. A name that is not UTF-8 is listed as `none`; `order` is the order of
the listings. -/
structure Volume where
  tops : Place → Object
  objects : Path → Option Object
  order : Place → List (Option String)
  unique : ∀ place, (order place).Nodup
  listed : ∀ path, (objects path).isSome → some path.2 ∈ order path.1
  nested : ∀ tree leaf name, (objects (.inside tree leaf, name)).isSome →
    ∃ o, objects (.top tree, leaf) = some o ∧ o.kind = .directory

namespace Volume

variable (d : Volume)

/-- A name in a directory. -/
def present (place : Place) : Option String → Bool
  | none => true
  | some name => (d.objects (place, name)).isSome

def listing (place : Place) : List (Option String) := (d.order place).filter (d.present place)

/-- Nothing is inside what stands at the path. -/
def Hollow : Path → Prop
  | (.top tree, leaf) => ∀ name, d.objects (.inside tree leaf, name) = none
  | _ => True

def unlink (path : Path) (h : d.Hollow path) : Volume where
  tops := d.tops
  objects := Function.update d.objects path none
  order := d.order
  unique := d.unique
  listed path' h' := by
    apply d.listed
    by_cases hpath : path' = path
    · simp [hpath] at h'
    · rwa [Function.update_of_ne hpath] at h'
  nested tree leaf name h' := by
    have hinside : (d.objects (.inside tree leaf, name)).isSome := by
      by_cases hpath : (Place.inside tree leaf, name) = path
      · simp [hpath] at h'
      · rwa [Function.update_of_ne hpath] at h'
    by_cases hpath : (Place.top tree, leaf) = path
    · subst hpath
      have hnone := h name
      rw [hnone] at hinside
      cases hinside
    · rw [Function.update_of_ne hpath]
      exact d.nested tree leaf name hinside

/-- What `unlinkat` takes away: a directory that is empty, or what is no directory. -/
def removable (path : Path) (directory : Bool) : Bool :=
  match d.objects path with
  | none => false
  | some o =>
    if directory then o.kind = .directory && match path with
      | (.top tree, leaf) => (d.listing (.inside tree leaf)).isEmpty
      | _ => true
    else o.kind ≠ .directory

theorem hollow_of_removable {path : Path} {directory : Bool} (h : d.removable path directory = true) :
    d.Hollow path := by
  unfold removable at h
  obtain ⟨place, leaf⟩ := path
  cases place with
  | sockets => trivial
  | inside tree name => trivial
  | top tree =>
    intro name
    by_contra hsome
    have hinside : (d.objects (.inside tree leaf, name)).isSome := Option.isSome_iff_ne_none.mpr hsome
    obtain ⟨o, ho, hkind⟩ := d.nested tree leaf name hinside
    rw [ho] at h
    cases directory with
    | false => simp [hkind] at h
    | true =>
      have hlisted : some name ∈ d.listing (.inside tree leaf) :=
        List.mem_filter.mpr ⟨d.listed _ hinside, hinside⟩
      simp only [if_true, Bool.and_eq_true, List.isEmpty_iff] at h
      rw [h.2] at hlisted
      cases hlisted

end Volume

/-! ## System calls -/

/-- `std::fs::symlink_metadata`. -/
inductive Metadata where
  | found (o : Object)
  | notFound
  | failed
  deriving DecidableEq, Repr

inductive Act where
  | walk
  | mkdirAt (place : Place)
  | openTop (place : Place)
  | openAt (path : Path) (directory : Bool)
  | metadata
  | readDir (place : Place)
  | read (path : Path)
  | symlinkMetadata (path : Path)
  | socket
  | connect (path : Path)
  | unlinkAt (path : Path) (directory : Bool)
  | sync

@[reducible]
def Ans : Act → Type
  | .walk | .mkdirAt _ | .metadata | .socket | .unlinkAt _ _ | .sync => Bool
  | .openTop _ | .openAt _ _ => Option Object
  | .readDir _ => Option (List (Option String))
  | .read _ => Option (List UInt8)
  | .symlinkMetadata _ => Metadata
  | .connect _ => Connection

/-- What a system call answers when it does not fail, and what it leaves. -/
def answer (a : Act) (d : Volume) : Ans a × Volume :=
  match a with
  | .walk | .mkdirAt _ | .metadata | .socket | .sync => (true, d)
  | .openTop place => (some (d.tops place), d)
  | .openAt path directory =>
    ((d.objects path).filter fun o =>
      if directory then o.kind = .directory else o.kind = .file || o.kind = .directory, d)
  | .readDir place => (some (d.listing place), d)
  | .read path => ((d.objects path).map fun o => o.content.take 4097, d)
  | .symlinkMetadata path => (((d.objects path).map Metadata.found).getD .notFound, d)
  | .connect path => (((d.objects path).map Object.connection).getD .failed, d)
  | .unlinkAt path directory =>
    if h : d.removable path directory = true then (true, d.unlink path (d.hollow_of_removable h)) else (false, d)

/-- What a system call answers when it fails. -/
def failure : (a : Act) → Ans a
  | .walk | .mkdirAt _ | .metadata | .socket | .unlinkAt _ _ | .sync => false
  | .openTop _ | .openAt _ _ | .readDir _ | .read _ => none
  | .symlinkMetadata _ => .failed
  | .connect _ => .failed

/-- A system call that goes through, or fails. -/
def respond (a : Act) (good : Bool) (d : Volume) : Option (Ans a × Volume) :=
  some (if good then answer a d else (failure a, d))

abbrev Steps (α : Type) := ExceptT ExecutionError (Prog Act Ans) α

def call (a : Act) : Steps (Ans a) := ExceptT.lift (Prog.perform a)

def refuseIf (error : ExecutionError) (condition : Bool) : Steps Unit :=
  if condition then throw error else pure ()

def okOr {α : Type} (error : ExecutionError) : Option α → Steps α
  | none => throw error
  | some value => pure value

/-! ## Objects -/

/-- SRCLINE: ssh_material.rs:57-75 -/
def openAt (path : Path) (directory : Bool) : Steps Object := do
  okOr .unsafePath (← call (.openAt path directory))

def metadata : Steps Unit := do
  refuseIf .unsafePath !(← call .metadata)

/-- SRCLINE: ssh_material.rs:80-87 -/
def Object.isPrivate (o : Object) (directory : Bool) : Bool :=
  o.owned && o.mode = (if directory then 0o700 else 0o600) &&
    if directory then o.kind = .directory else o.kind = .file && o.nlink = 1

/-- `private`.
SRCLINE: ssh_material.rs:76-91 -/
def checkPrivate (o : Object) (directory : Bool) : Steps Unit := do
  metadata
  refuseIf .unsafePath !o.isPrivate directory

/-- SRCLINE: ssh_material.rs:92-137 -/
def directory : Steps Unit := do
  refuseIf .unsafePath !(← call .walk)

def syncAll : Steps Unit := do
  refuseIf .unsafePath !(← call .sync)

/-- SRCLINE: ssh_material.rs:138-149 -/
def ensureDirectory (place : Place) : Steps Unit := do
  refuseIf .unsafePath !(← call (.mkdirAt place))
  let result ← okOr .unsafePath (← call (.openTop place))
  checkPrivate result true
  syncAll

/-- SRCLINE: ssh_material.rs:189-202 -/
def entries (place : Place) : Steps (List String) := do
  let names ← okOr .unsafePath (← call (.readDir place))
  okOr .unsafePath (names.mapM id)

/-- SRCLINE: ssh_material.rs:247-256 -/
def same (path : Path) (file : Object) (directory : Bool) : Steps Unit := do
  let current ← openAt path directory
  checkPrivate current directory
  metadata
  metadata
  refuseIf .unsafePath (file.identity ≠ current.identity)

/-- SRCLINE: ssh_material.rs:257-294 -/
def remove (path : Path) (directory : Bool) : Steps Unit := do
  refuseIf .cleanupUncertain !(← call (.unlinkAt path directory))
  syncAll

/-- SRCLINE: ssh_material.rs:345-348 -/
def identity (o : Object) : Steps Identity := do
  metadata
  return o.identity

/-! ## Cleanup -/

/-- SRCLINE: ssh_material.rs:301-304 -/
def allowedName (isPublic : Bool) (name : String) : Bool :=
  ["identity", "known_hosts", "in_use", "pending"].contains name || (isPublic && name = "agent.json")

/-- SRCLINE: ssh_material.rs:300-310 -/
def checkAll (place : Place) (isPublic : Bool) : List String → Steps (List (String × Object))
  | [] => return []
  | leaf :: rest => do
    refuseIf .cleanupUncertain !allowedName isPublic leaf
    let file ← openAt (place, leaf) false
    checkPrivate file false
    return (leaf, file) :: (← checkAll place isPublic rest)

/-- The unused marker goes after the material, and the record last.
SRCLINE: ssh_material.rs:313-319 -/
def rank (leaf : String) : ℕ := if leaf = "agent.json" then 2 else if leaf = "pending" then 1 else 0

/-- SRCLINE: ssh_material.rs:320-323 -/
def removeAll (place : Place) : List (String × Object) → Steps Unit
  | [] => return ()
  | (leaf, file) :: rest => do
    same (place, leaf) file false
    remove (place, leaf) false
    removeAll place rest

/-- SRCLINE: ssh_material.rs:295-326 -/
def cleanup (tree : Tree) (leaf : String) (dir : Object) (isPublic : Bool) : Steps Unit := do
  same (.top tree, leaf) dir true
  let names ← entries (.inside tree leaf)
  let checked ← checkAll (.inside tree leaf) isPublic names
  removeAll (.inside tree leaf) (sortByKey (fun entry => rank entry.1) checked)
  same (.top tree, leaf) dir true
  remove (.top tree, leaf) true

/-! ## Requests with a record -/

/-- SRCLINE: ssh_material.rs:327-333 -/
def requestName (value : String) : Bool :=
  value.utf8ByteSize = 36 && "req-".toList.isPrefixOf value.toList &&
    (value.toList.drop 4).all isLowerHex

/-- SRCLINE: ssh_material.rs:334-340 -/
structure AgentRecord where
  directory : Identity
  socket : Identity
  files : List (String × Identity)
  deriving DecidableEq, Repr

/-- SRCLINE: ssh_material.rs:345-348 -/
def identityJson (i : Identity) : Json := .arr [.int i.1.toNat, .int i.2.toNat]

/-- `serde_json::to_vec` of a record. -/
def AgentRecord.encode (record : AgentRecord) : List UInt8 :=
  Json.toVec (.obj [("directory", identityJson record.directory), ("socket", identityJson record.socket),
    ("files", .arr (record.files.map fun file => .arr [.str file.1, identityJson file.2]))])

/-- The name of a request's socket. -/
def socketName (request : String) : String := encodeUrlSafe (hexPairs ((bytes request).drop 4)) ++ ".sock"

/-- SRCLINE: ssh_material.rs:353-362 -/
def socketLeaf (request : String) : Steps String := do
  refuseIf .cleanupUncertain !requestName request
  return socketName request

/-- SRCLINE: ssh_material.rs:386-391 -/
def AgentRecord.isPublic (record : AgentRecord) : Bool :=
  match record.files with
  | [(first, _), (second, _)] => first = "pending" && second = "known_hosts"
  | _ => false

/-- Every entry beside the record is a recorded object.
SRCLINE: ssh_material.rs:393-410 -/
def checkRecorded (place : Place) (record : AgentRecord) : List String → Steps (List (String × Object))
  | [] => return []
  | name :: rest => do
    if name = "agent.json" then checkRecorded place record rest
    else do
      let expected ← okOr .cleanupUncertain (record.files.lookup name)
      let file ← openAt (place, name) false
      checkPrivate file false
      refuseIf .cleanupUncertain ((← identity file) ≠ expected)
      return (name, file) :: (← checkRecorded place record rest)

/-- SRCLINE: ssh_material.rs:425-431 -/
def Object.isRecordedSocket (o : Object) (record : AgentRecord) : Bool :=
  o.kind = .socket && o.owned && o.mode = 0o600 && o.nlink = 1 && o.identity = record.socket

/-- The socket is taken away if nothing listens; otherwise nothing more is done.
SRCLINE: ssh_material.rs:423-486 -/
def reclaimSocket (record : AgentRecord) (path : Path) (requireStopped : Bool) : Steps Bool := do
  match ← call (.symlinkMetadata path) with
  | .found o =>
    refuseIf .cleanupUncertain !o.isRecordedSocket record
    refuseIf .cleanupUncertain !(← call .socket)
    match ← call (.connect path) with
    | .accepted | .pending =>
      refuseIf .cleanupUncertain requireStopped
      return false
    | .failed => throw .cleanupUncertain
    | .refused =>
      -- `path_identity` once more
      match ← call (.symlinkMetadata path) with
      | .found current =>
        refuseIf .cleanupUncertain (current.identity ≠ record.socket)
        remove path false
        return true
      | _ => throw .unsafePath
  | .notFound => return true
  | .failed => throw .cleanupUncertain

/-- SRCLINE: ssh_material.rs:487-498 -/
def removeRequest (leaf : String) (dir recordFile : Object) (checked : List (String × Object)) : Steps Unit := do
  same (.top .agents, leaf) dir true
  same (.inside .agents leaf, "agent.json") recordFile false
  removeAll (.inside .agents leaf) checked
  same (.inside .agents leaf, "agent.json") recordFile false
  remove (.inside .agents leaf, "agent.json") false
  same (.top .agents, leaf) dir true
  remove (.top .agents, leaf) true

section Recovery

variable (decode : List UInt8 → Option AgentRecord)

/-- SRCLINE: ssh_material.rs:374-392 -/
def readRecord (leaf : String) (dir : Object) : Steps AgentRecord := do
  let bytes ← okOr .unsafePath (← call (.read (.inside .agents leaf, "agent.json")))
  refuseIf .cleanupUncertain (decide (4096 < bytes.length))
  let record ← okOr .unsafePath (decode bytes)
  refuseIf .cleanupUncertain ((← identity dir) ≠ record.directory || !record.isPublic)
  return record

/-- SRCLINE: ssh_material.rs:362-499 -/
def recoverAgent (leaf : String) (requireStopped : Bool) : Steps Unit := do
  refuseIf .cleanupUncertain !requestName leaf
  let dir ← openAt (.top .agents, leaf) true
  checkPrivate dir true
  let recordFile ← openAt (.inside .agents leaf, "agent.json") false
  checkPrivate recordFile false
  let record ← readRecord decode leaf dir
  let checked ← checkRecorded (.inside .agents leaf) record (← entries (.inside .agents leaf))
  same (.top .agents, leaf) dir true
  same (.inside .agents leaf, "agent.json") recordFile false
  directory
  ensureDirectory .sockets
  let socket ← socketLeaf leaf
  if ← reclaimSocket record (.sockets, socket) requireStopped then removeRequest leaf dir recordFile checked
  else return ()

/-- SRCLINE: ssh_material.rs:515-520 -/
def recoverAgents (requireStopped : Bool) : List String → Steps Bool
  | [] => return false
  | leaf :: rest => do
    let result ← ExceptT.lift (recoverAgent decode leaf requireStopped).run
    let uncertain ← recoverAgents requireStopped rest
    return !result.isOk || uncertain

/-- A historical request that was never handed to a helper.
SRCLINE: ssh_material.rs:530-533 -/
def unused (names : List String) : Bool :=
  names.isEmpty || (names.contains "pending" && !names.contains "in_use")

/-- What was handed over is kept.
SRCLINE: ssh_material.rs:527-534 -/
def cleanupUnused (leaf : String) (dir : Object) (names : List String) : Steps Unit :=
  if unused names then cleanup .requests leaf dir false else return ()

/-- SRCLINE: ssh_material.rs:522-537 -/
def recoverRequests : List String → Steps Unit
  | [] => return ()
  | leaf :: rest => do
    refuseIf .cleanupUncertain !requestName leaf
    let dir ← openAt (.top .requests, leaf) true
    checkPrivate dir true
    let names ← entries (.inside .requests leaf)
    cleanupUnused leaf dir names
    recoverRequests rest

/-- SRCLINE: ssh_material.rs:512-538 -/
def recoverMode (requireStopped : Bool) : Steps Unit := do
  directory
  ensureDirectory (.top .agents)
  let uncertain ← recoverAgents decode requireStopped (← entries (.top .agents))
  ensureDirectory (.top .requests)
  recoverRequests (← entries (.top .requests))
  refuseIf .cleanupUncertain uncertain

end Recovery

/-! ## The end of a request -/

/-- SRCLINE: ssh_material.rs:602-609 -/
structure Material where
  leaf : String
  dir : Object
  socketName : String
  socketIdentity : Identity
  finished : Bool

/-- `Agent::close`: failures are not looked at.
SRCLINE: ssh_agent.rs:278-299 -/
def close (m : Material) : Steps Unit := do
  match ← call (.symlinkMetadata (.sockets, m.socketName)) with
  | .found o =>
    if o.identity = m.socketIdentity then do
      let _ ← call (.unlinkAt (.sockets, m.socketName) false)
      return ()
    else return ()
  | _ => return ()

/-- SRCLINE: ssh_material.rs:614-635 -/
def finalize (m : Material) : Steps Unit := do
  close m
  if m.finished then return ()
  else do
    let names ← entries (.inside .agents m.leaf)
    refuseIf .cleanupUncertain (names.contains "identity")
    cleanup .agents m.leaf m.dir true

end VaultAccess.Model.SshMaterial
