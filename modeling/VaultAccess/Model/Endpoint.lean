import VaultAccess.Model.Approval
import VaultAccess.Model.Identity

/-!
# The provider's endpoint for approval clients

`src/adapters/companion.rs` and `src/adapters/companion/management.rs`: what an authenticated
approval client is answered. A command runs under the locks it takes, so that it is a function
of the service, of the registry file and of its `Readings`: what the clocks, the locks, the
application and the authenticators show to it, in the order they are asked. The command has
passed `Command::valid`, and an answer is its document.
-/

set_option autoImplicit false

namespace VaultAccess.Model.Endpoint

open VaultAccess.Library VaultAccess.Library.Text VaultAccess.Model.Identity

def RESPONSE_LIMIT : ℕ := 1048576
def TICKET_SECONDS : ℕ := 55
def ATTEMPT_SECONDS : ℕ := 60
def MAX_ATTEMPTS : ℕ := 5

/-- SRCLINE: companion.rs:989-996 -/
inductive Error where
  | invalid
  | unauthorized
  | unavailable
  | stale
  | authentication
  | rateLimited
  deriving DecidableEq, Repr

/-- SRCLINE: companion.rs:1042-1051 -/
def Error.wire : Error → String
  | invalid => "invalid_request"
  | unauthorized => "unauthorized"
  | unavailable => "unavailable"
  | stale => "stale"
  | authentication => "authentication_failed"
  | rateLimited => "rate_limited"

/-- SRCLINE: companion.rs:1041-1056 -/
def Error.toJson (error : Error) : Json := .obj [("error", .str error.wire), ("version", .int 1)]

/-- An answer that is too long is none.
SRCLINE: companion.rs:1057-1064 -/
def respond (document : Json) : Except Error Json :=
  if RESPONSE_LIMIT < document.size then .error .unavailable else .ok document

/-- SRCLINE: management.rs:11-16 -/
inductive Kind where
  | approvalClient
  | requesterAgent
  deriving DecidableEq, Repr

def Kind.wire : Kind → String
  | approvalClient => "approval_client"
  | requesterAgent => "requester_agent"

/-- SRCLINE: management.rs:30-35 -/
structure Target where
  kind : Kind
  id : String
  deriving DecidableEq, Repr

def Target.toJson (target : Target) : Json :=
  .obj [("id", .str target.id), ("kind", .str target.kind.wire)]

/-- SRCLINE: management.rs:17-23 -/
inductive BiometricOperation where
  | enroll
  | revoke
  deriving DecidableEq, Repr

def BiometricOperation.wire : BiometricOperation → String
  | enroll => "enroll"
  | revoke => "revoke"

/-- SRCLINE: management.rs:24-29 -/
inductive Purpose where
  | identityRevoke
  | biometric (operation : BiometricOperation)
  deriving DecidableEq, Repr

/-- SRCLINE: management.rs:103-112 -/
structure Ticket where
  token : String
  purpose : Purpose
  actionId : String
  actor : String
  target : Target
  generation : UInt64
  epoch : UInt64
  deadline : ℕ
  deriving DecidableEq, Repr

/-- What the service keeps in memory; times are in nanoseconds.
SRCLINE: companion.rs:360-374; management.rs:113-128 -/
structure Service where
  providerFingerprint : String
  biometricTickets : List Ticket
  failed : Bool
  attempts : String → List ℕ

/-! ## What a command reads -/

/-- Seconds as nanoseconds. -/
def seconds (n : ℕ) : ℕ := n * 1000000000

/-- The checks under the commit lock. -/
structure Recheck where
  registry : Option Json
  unpoisoned : Bool
  now : ℕ
  authority : Option (UInt64 × UInt64)

/-- What a command reads from outside. -/
structure Readings where
  authority : Option (UInt64 × UInt64)
  registry : Option Json
  managementLock : Bool
  now : ℕ
  authenticationFree : Bool
  stateLock : Bool
  attemptedAt : ℕ
  authenticates : Option Bool
  commitLock : Bool
  recheck : Recheck
  permittedRegistry : Option Json
  disk : Identity.Disk

/-- The enabled approval clients.
SRCLINE: companion_identity.rs:413-415 -/
def enrolled (E : Externals) (file : Option Json) : Except SessionError (List EnrolledCompanion) :=
  (readRegistry E file).map (·.identities)

/-- SRCLINE: companion_identity.rs:446-448 -/
def administrator (E : Externals) (file : Option Json) (fingerprint : String) : Bool :=
  match readRegistry E file with
  | .ok registry => registry.administrators.contains fingerprint
  | .error _ => false

/-- SRCLINE: companion_identity.rs:283-305 -/
def biometricKeyId (E : Externals) (file : Option Json) (fingerprint : String) :
    Except SessionError (Option String) :=
  (readRegistry E file).map fun registry =>
    if registry.enabled fingerprint then
      (registry.biometric.find? (·.fingerprint = fingerprint)).bind fun entry =>
        (entry.decoded E).map fun _ => entry.keyId
    else none

/-- SRCLINE: companion.rs:466-472 -/
def Service.authorized (E : Externals) (service : Service) (unpoisoned : Bool) (file : Option Json)
    (device : String) : Bool :=
  unpoisoned && !service.failed &&
    match enrolled E file with
    | .ok entries => entries.any (·.fingerprint = device)
    | .error _ => false

/-- The attempts of a device within a minute, one more among them unless there are too many.
SRCLINE: companion.rs:256-269, 774-778 -/
def Service.attempt (service : Service) (stateLock : Bool) (device : String) (now : ℕ) :
    Bool × Service :=
  if !stateLock then (false, service)
  else
    let recent := (service.attempts device).dropWhile fun time =>
      decide (seconds ATTEMPT_SECONDS ≤ now - time)
    if MAX_ATTEMPTS ≤ recent.length then
      (false, { service with attempts := Function.update service.attempts device recent })
    else
      (true, { service with attempts := Function.update service.attempts device (recent ++ [now]) })

/-- SRCLINE: companion.rs:139-148 -/
def decodeBinary (value : String) : Option (List UInt8) :=
  if value.isEmpty || decide (256 < value.utf8ByteSize) then none
  else (decodeUrlSafe value).filter fun data => encodeUrlSafe data = value

/-! ## Touch ID keys -/

/-- SRCLINE: management.rs:674-678 -/
def permitted (E : Externals) (actor : String) (file : Option Json) (operation : BiometricOperation)
    (target : Target) : Bool :=
  target.kind = .approvalClient &&
    (target.id = actor || (operation = .revoke && administrator E file actor))

/-- SRCLINE: management.rs:680-732 -/
def biometricPrepare (E : Externals) (service : Service) (actor : String)
    (operation : BiometricOperation) (target : Target) (r : Readings)
    (action nonce : Option (Vector UInt8 32)) : Except Error Json × Service :=
  match r.authority with
  | none => (.error .unavailable, service)
  | some (generation, epoch) =>
    if !permitted E actor r.registry operation target then (.error .unauthorized, service)
    else if !r.managementLock then (.error .unavailable, service)
    else
      match enrolled E r.permittedRegistry with
      | .error _ => (.error .unavailable, service)
      | .ok entries =>
        if !entries.any (·.fingerprint = target.id) then (.error .stale, service)
        else
          let service := { service with
            biometricTickets := service.biometricTickets.filter fun t =>
              decide (r.now < t.deadline) &&
                !(t.actor = actor && t.purpose = .biometric operation) }
          match action, nonce with
          | some action, some nonce =>
            let deadline := r.now + seconds TICKET_SECONDS
            match biometricKeyId E r.permittedRegistry target.id with
            | .error _ => (.error .unavailable, service)
            | .ok keyId =>
              let actionId := newRandom action
              let token := hexSha256 E nonce.toList
              let ticket : Ticket := {
                token, purpose := .biometric operation, actionId, actor, target, generation, epoch,
                deadline }
              (respond (.obj [("version", .int 2), ("operation", .str operation.wire),
                ("target", target.toJson), ("action_id", .str actionId), ("ticket", .str token),
                ("generation", .int generation.toNat), ("valid_for_seconds", .int TICKET_SECONDS),
                ("provider_identity", .str service.providerFingerprint),
                ("biometric_key_id", (keyId.map Json.str).getD .null)]),
                { service with biometricTickets := service.biometricTickets ++ [ticket] })
          | _, _ => (.error .unavailable, service)

/-- A ticket is found and removed.
SRCLINE: management.rs:867-893 -/
def Service.takeTicket (service : Service) (managementLock : Bool) (actor : String)
    (purpose : Purpose) (actionId : String) (target : Target) (token : String) :
    Except Error Ticket × Service :=
  if !managementLock then (.error .unavailable, service)
  else
    match service.biometricTickets.findIdx? fun t =>
        t.actor = actor && t.purpose = purpose && t.actionId = actionId && t.target = target &&
          t.token = token with
    | none => (.error .stale, service)
    | some position =>
      match service.biometricTickets[position]? with
      | none => (.error .stale, service)
      | some ticket =>
        (.ok ticket, { service with
          biometricTickets := swapRemove service.biometricTickets position })

/-- SRCLINE: management.rs:896-914 -/
def Service.recheck (E : Externals) (service : Service) (actor : String) (ticket : Ticket)
    (r : Recheck) : Except Error Unit :=
  if !service.authorized E r.unpoisoned r.registry actor then .error .stale
  else if ticket.deadline ≤ r.now then .error .stale
  else
    match r.authority with
    | none => .error .unavailable
    | some authority =>
      if authority ≠ (ticket.generation, ticket.epoch) then .error .stale
      else
        match enrolled E r.registry with
        | .error _ => .error .unavailable
        | .ok entries =>
          if !entries.any (·.fingerprint = ticket.target.id) then .error .stale else .ok ()

/-- The ticket of a mutation, in its time and with an attempt left.
SRCLINE: management.rs:747-766, 824-839 -/
def Service.admitMutation (service : Service) (actor : String) (operation : BiometricOperation)
    (target : Target) (actionId token : String) (generation : UInt64) (r : Readings) :
    Except Error Ticket × Service :=
  match service.takeTicket r.managementLock actor (.biometric operation) actionId target token with
  | (.error error, service) => (.error error, service)
  | (.ok ticket, service) =>
    if ticket.generation ≠ generation ∨ ticket.deadline ≤ r.now then (.error .stale, service)
    else if !r.authenticationFree then (.error .rateLimited, service)
    else
      match service.attempt r.stateLock actor r.attemptedAt with
      | (false, service) => (.error .rateLimited, service)
      | (true, service) => (.ok ticket, service)

/-- The password, the commit lock and what holds under it.
SRCLINE: management.rs:786-797, 840-849 -/
def Service.authenticateMutation (E : Externals) (service : Service) (actor : String)
    (ticket : Ticket) (r : Readings) : Except Error Unit :=
  match r.authenticates with
  | none => .error .unavailable
  | some false => .error .authentication
  | some true => if !r.commitLock then .error .unavailable else service.recheck E actor ticket r.recheck

/-- The key, with the proof of its possession.
SRCLINE: management.rs:767-785 -/
def provenKey (verify : List UInt8 → List UInt8 → List UInt8 → Bool) (service : Service)
    (actor : String) (ticket : Ticket) (actionId publicKey signature : String) :
    Except Error (List UInt8) :=
  match decodeBinary publicKey, decodeBinary signature with
  | some key, some signature =>
    match Approval.enrollTranscript service.providerFingerprint actor key ticket.token actionId with
    | none => .error .invalid
    | some transcript => if verify key transcript signature then .ok key else .error .authentication
  | _, _ => .error .invalid

/-- The answer of a mutation, and the registry file it leaves.
SRCLINE: management.rs:734-810 -/
def biometricEnroll (E : Externals) (verify : List UInt8 → List UInt8 → List UInt8 → Bool)
    (service : Service) (actor actionId token publicKey signature : String) (r : Readings) :
    Except Error Json × Service × Option Json :=
  let file := r.recheck.registry
  let target : Target := { kind := .approvalClient, id := actor }
  match r.authority with
  | none => (.error .unavailable, service, file)
  | some (generation, _) =>
    match service.admitMutation actor .enroll target actionId token generation r with
    | (.error error, service) => (.error error, service, file)
    | (.ok ticket, service) =>
      match provenKey verify service actor ticket actionId publicKey signature with
      | .error error => (.error error, service, file)
      | .ok key =>
        match service.authenticateMutation E actor ticket r with
        | .error error => (.error error, service, file)
        | .ok () =>
          match enrollBiometricOnline E r.disk file actor key ticket.generation with
          | (.error .invalidRequest, file) => (.error .invalid, service, file)
          | (.error _, file) => (.error .unavailable, service, file)
          | (.ok keyId, file) =>
            (respond (.obj [("version", .int 2), ("operation", .str BiometricOperation.enroll.wire),
              ("target", target.toJson), ("action_id", .str actionId),
              ("biometric_key_id", .str keyId)]), service, file)

/-- SRCLINE: management.rs:811-862 -/
def biometricRevoke (E : Externals) (service : Service) (actor : Actor) (target : Target)
    (actionId token : String) (r : Readings) : Except Error Json × Service × Option Json :=
  let file := r.recheck.registry
  match r.authority with
  | none => (.error .unavailable, service, file)
  | some (generation, _) =>
    if !permitted E actor.text r.registry .revoke target then (.error .unauthorized, service, file)
    else
      match service.admitMutation actor.text .revoke target actionId token generation r with
      | (.error error, service) => (.error error, service, file)
      | (.ok ticket, service) =>
        match service.authenticateMutation E actor.text ticket r with
        | .error error => (.error error, service, file)
        | .ok () =>
          if !permitted E actor.text r.permittedRegistry .revoke target then
            (.error .stale, service, file)
          else
            match revokeBiometricOnline E r.disk file target.id actor with
            | (.error _, file) => (.error .unavailable, service, file)
            | (.ok keyId, file) =>
              (respond (.obj [("version", .int 2),
                ("operation", .str BiometricOperation.revoke.wire), ("target", target.toJson),
                ("action_id", .str actionId), ("revoked_key_id", (keyId.map Json.str).getD .null)]),
                service, file)

end VaultAccess.Model.Endpoint
