import VaultAccess.Library.Pages
import VaultAccess.Model.Identity
import VaultAccess.Model.ProviderState
import VaultAccess.Model.SecretStorage

/-!
# The companion's list of identities

`IdentityList` of `src/adapters/companion/management.rs`: the approval clients of the registry and
the agents of the provider in one list, sorted by a key of kind and id, and a page of it behind a
cursor. What a command reads elsewhere (the two files and the provider) is an argument.
-/

set_option autoImplicit false

namespace VaultAccess.Model.Inventory

open VaultAccess.Library VaultAccess.Library.Text
open VaultAccess.Model (Externals Disk ProviderState AgentBindingView AgentBindingStatus SessionError
  validRequestId splitOnce)
open VaultAccess.Model.Identity (Registry EnrolledCompanion validFingerprint readRegistry)

/-- SRCLINE: management.rs:8 -/
def MAX_PAGE : ℕ := 64

/-- SRCLINE: companion.rs:989-996 -/
inductive Error where
  | invalid
  | unauthorized
  | unavailable
  | stale
  | authentication
  | rateLimited
  deriving DecidableEq, Repr

/-- SRCLINE: management.rs:10-15 -/
inductive Kind where
  | approvalClient
  | requesterAgent
  deriving DecidableEq, Repr

def Kind.wire : Kind → String
  | approvalClient => "approval_client"
  | requesterAgent => "requester_agent"

/-- SRCLINE: management.rs:29-34 -/
structure Target where
  kind : Kind
  id : String
  deriving DecidableEq, Repr

/-- SRCLINE: management.rs:42-51 -/
def Target.key (target : Target) : String := target.kind.wire ++ ":" ++ target.id

/-- SRCLINE: management.rs:53-62 -/
structure Identity where
  kind : Kind
  id : String
  label : String
  fingerprint : String
  roles : List String
  trust : String
  thisClient : Bool
  deriving DecidableEq, Repr

/-- SRCLINE: management.rs:63-70 -/
def Identity.target (row : Identity) : Target := { kind := row.kind, id := row.id }

/-- SRCLINE: management.rs:131-137 -/
def cursorValid (value : String) : Bool :=
  match splitOnce ':' value.toList with
  | none => false
  | some (kind, id) =>
    if kind = "approval_client".toList then validFingerprint (String.ofList id)
    else if kind = "requester_agent".toList then validRequestId (String.ofList id)
    else false

/-- SRCLINE: management.rs:141-149 -/
def valid (version limit : ℕ) (after : Option String) : Bool :=
  (version = 2 || version = 3) && (decide (1 ≤ limit) && decide (limit ≤ MAX_PAGE)) && after.all cursorValid

/-- With whether it is revoked and whether it is an administrator.
SRCLINE: companion_identity.rs:416-435 -/
def managementRecords (registry : Registry) : List (EnrolledCompanion × Bool × Bool) :=
  registry.identities.map (fun entry => (entry, false, registry.administrators.contains entry.fingerprint)) ++
    registry.revoked.map fun entry => (entry, true, false)

/-- The key of a device that has one; devices of a registry are distinct.
SRCLINE: companion_identity.rs:437-445 -/
def biometricKeyId (registry : Registry) (fingerprint : String) : Option String :=
  (registry.biometric.find? fun entry => entry.fingerprint = fingerprint).map (·.keyId)

/-- `read_state` checks what it reads.
SRCLINE: provider_store.rs:351-369, provider.rs:113-128 -/
def listAgents (E : Externals) (disk : Disk) (ownerUid : UInt32) (state : Option ProviderState) :
    Option (List AgentBindingView) :=
  state.bind fun s => if s.validateForOwner E disk ownerUid then some (s.pairings.map (·.view)) else none

/-- What one command reads: the registry three times, the provider's state, and what the response
tells of the provider. -/
structure Reads where
  administrators : Option Json
  generation : Option ℕ
  registry : Option Json
  state : Option ProviderState
  disk : Disk
  keys : Option Json
  fingerprint : String
  dispatcher : Option Bool
  unlocked : Bool

section Listing

variable (E : Externals) (ownerUid : UInt32) (actor : String) (reads : Reads)

def clientRow (entry : EnrolledCompanion) (revoked admin : Bool) : Identity where
  kind := .approvalClient
  id := entry.fingerprint
  label := entry.label
  thisClient := entry.fingerprint = actor
  fingerprint := entry.fingerprint
  roles := if revoked then [] else if admin then ["approve", "admin"] else ["approve"]
  trust := if revoked then "revoked" else "enabled"

def agentRow (agent : AgentBindingView) : Identity where
  kind := .requesterAgent
  id := agent.id
  label := agent.label
  fingerprint := agent.fingerprint
  roles := if agent.status = .revoked then [] else ["request"]
  trust := if agent.status = .revoked then "revoked" else "enabled"
  thisClient := false

/-- The rows before they are sorted.
SRCLINE: management.rs:216-250 -/
def merged (registry : Registry) (agents : List AgentBindingView) : List Identity :=
  (managementRecords registry).map (fun (entry, revoked, admin) => clientRow actor entry revoked admin) ++
    agents.map agentRow

/-- SRCLINE: management.rs:211-252 -/
def inventory : Except Error (List Identity) := do
  let registry ← (readRegistry E reads.registry).mapError fun _ => Error.unavailable
  match listAgents E reads.disk ownerUid reads.state with
  | none => .error .unavailable
  | some agents => return sortByKey (fun row : Identity => row.target.key) (merged actor registry agents)

/-- A row of a response; version 3 adds the key id of an approval client. -/
structure Row where
  identity : Identity
  biometricKeyId : Option (Option String)
  deriving DecidableEq, Repr

/-- SRCLINE: management.rs:632-657 -/
def rowsFor (version : ℕ) (rows : List Identity) : Except Error (List Row) :=
  if version = 3 then do
    let registry ← (readRegistry E reads.keys).mapError fun _ => Error.unavailable
    return rows.map fun row =>
      ⟨row, some (if row.kind = .approvalClient then biometricKeyId registry row.id else none)⟩
  else return rows.map fun row => ⟨row, none⟩

/-- SRCLINE: management.rs:409-413 -/
structure Listing where
  version : ℕ
  identities : List Row
  nextCursor : Option String
  generation : ℕ
  fingerprint : String
  executionConfigured : Bool
  executionAvailable : Bool
  deriving DecidableEq, Repr

/-- SRCLINE: management.rs:371-413 -/
def identityList (version limit : ℕ) (after : Option String) : Except Error Listing := do
  if !valid version limit after then throw .invalid
  let administrator := match readRegistry E reads.administrators with
    | .ok registry => registry.administrators.contains actor
    | .error _ => false
  if !administrator then throw .unauthorized
  match reads.generation with
  | none => throw .unavailable
  | some generation =>
    let rows ← inventory E ownerUid actor reads
    let (shown, next) := Pages.page (fun row : Identity => row.target.key) rows limit after
    return {
      version
      identities := ← rowsFor E reads version shown
      nextCursor := next
      generation
      fingerprint := reads.fingerprint
      executionConfigured := reads.dispatcher.isSome
      executionAvailable := reads.unlocked && reads.dispatcher.any id }

end Listing

end VaultAccess.Model.Inventory
