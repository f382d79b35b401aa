import VaultAccess.Library.Runs
import VaultAccess.Model.Companion

/-!
# The companion's management session

`companion/rust/src/provider/management.rs`: reading the provider's identities and
revoking one of them. A revocation that was handed out is kept as the recovery record
until the provider shows what became of it. As in the provider session, a run is a list
of calls, the monotonic clock's readings are part of a call, and the decoders are the
fields of `Replies`.
-/

set_option autoImplicit false

namespace VaultAccess.Model.Companion.Management

open VaultAccess.Library VaultAccess.Library.Text

/-- SRCLINE: api/management.rs:6-11 -/
inductive IdentityKind where
  | approvalClient
  | requesterAgent
  deriving DecidableEq, Repr

/-- SRCLINE: api/management.rs:23-29 -/
inductive IdentityRole where
  | approve
  | admin
  | request
  deriving DecidableEq, Repr

/-- SRCLINE: api/management.rs:30-35 -/
inductive IdentityTrust where
  | enabled
  | revoked
  deriving DecidableEq, Repr

/-- SRCLINE: api/management.rs:36-45 -/
inductive Command where
  | list
  | next
  | detail
  | prepare
  | revoke
  | status
  | origin
  deriving DecidableEq, Repr

/-- SRCLINE: api/management.rs:46-55 -/
inductive InventoryState where
  | unavailable
  | ready
  | empty
  | unauthorized
  | stale
  | revoked
  deriving DecidableEq, Repr

/-- SRCLINE: api/management.rs:56-65 -/
inductive Outcome where
  | none
  | accepted
  | rejected
  | invalid
  | stale
  | unsupported
  deriving DecidableEq, Repr

def IdentityKind.wire : IdentityKind → String
  | approvalClient => "approval_client"
  | requesterAgent => "requester_agent"

/-- SRCLINE: management.rs:13-18 -/
structure Target where
  kind : IdentityKind
  id : String
  deriving DecidableEq, Repr

/-- SRCLINE: management.rs:20-25 -/
def Target.valid (target : Target) : Bool :=
  match target.kind with
  | .approvalClient => validHex target.id
  | .requesterAgent => validId target.id

/-- SRCLINE: management.rs:26-36 -/
def Target.key (target : Target) : String := target.kind.wire ++ ":" ++ target.id

def Target.toJson (target : Target) : Json :=
  .obj [("id", .str target.id), ("kind", .str target.kind.wire)]

/-- SRCLINE: api/management.rs:12-22 -/
structure ManagedIdentity where
  kind : IdentityKind
  id : String
  label : String
  fingerprint : String
  roles : List IdentityRole
  trust : IdentityTrust
  thisClient : Bool
  deriving DecidableEq, Repr

/-- SRCLINE: management.rs:39-44 -/
def ManagedIdentity.target (row : ManagedIdentity) : Target := { kind := row.kind, id := row.id }

/-- The roles an identity may have.
SRCLINE: management.rs:51-59 -/
def ManagedIdentity.validRoles (row : ManagedIdentity) : Bool :=
  match row.trust, row.kind with
  | .revoked, _ => row.roles.isEmpty
  | .enabled, .approvalClient => row.roles = [.approve] || row.roles = [.approve, .admin]
  | .enabled, .requesterAgent => row.roles = [.request]

/-- SRCLINE: management.rs:45-64 -/
def ManagedIdentity.valid (row : ManagedIdentity) : Bool :=
  row.target.valid && validHex row.fingerprint && !row.label.isEmpty &&
    decide (row.label.utf8ByteSize ≤ 128) && !row.label.toList.any isControl && row.validRoles &&
    match row.kind with
    | .approvalClient => row.id = row.fingerprint
    | .requesterAgent => !row.thisClient

/-- SRCLINE: management.rs:65-69 -/
def ManagedIdentity.projection (row : ManagedIdentity) : ManagedIdentity :=
  { row with label := visible row.label }

/-- SRCLINE: management.rs:71-76 -/
structure Recovery where
  target : Target
  actionId : String
  deriving DecidableEq, Repr

/-- SRCLINE: management.rs:77-81 -/
def Recovery.valid (recovery : Recovery) : Bool := recovery.target.valid && validId recovery.actionId

/-- The saved text of a recovery record, its members in the order of the struct. -/
def Recovery.text (recovery : Recovery) : String :=
  String.ofList (Json.render (.obj [("target", .obj [("kind", .str recovery.target.kind.wire),
    ("id", .str recovery.target.id)]), ("action_id", .str recovery.actionId)]))

/-- SRCLINE: management.rs:82-88 -/
structure Provider where
  fingerprint : String
  executionConfigured : Bool
  executionAvailable : Bool
  deriving DecidableEq, Repr

/-- SRCLINE: management.rs:89-98 -/
structure Inventory where
  version : UInt8
  identities : List ManagedIdentity
  nextCursor : Option String
  generation : ℕ
  provider : Provider
  deriving DecidableEq, Repr

/-- SRCLINE: management.rs:99-105 -/
structure Detail where
  version : UInt8
  identity : ManagedIdentity
  generation : ℕ
  deriving DecidableEq, Repr

/-- SRCLINE: management.rs:106-115 -/
structure Prepared where
  version : UInt8
  identity : ManagedIdentity
  actionId : String
  ticket : String
  generation : ℕ
  validForSeconds : UInt32
  deriving DecidableEq, Repr

/-- SRCLINE: management.rs:116-123 -/
inductive Revocation where
  | notRecorded
  | pending
  | recorded
  | unknown
  deriving DecidableEq, Repr

/-- SRCLINE: management.rs:124-131 -/
inductive Cleanup where
  | pending
  | complete
  | unknown
  | notApplicable
  deriving DecidableEq, Repr

def Revocation.wire : Revocation → String
  | notRecorded => "not_recorded"
  | pending => "pending"
  | recorded => "recorded"
  | unknown => "unknown"

def Cleanup.wire : Cleanup → String
  | pending => "pending"
  | complete => "complete"
  | unknown => "unknown"
  | notApplicable => "not_applicable"

/-- SRCLINE: management.rs:132-141 -/
def validActionFacts : Revocation → Cleanup → Bool
  | .notRecorded, .notApplicable => true
  | .pending, .pending => true
  | .pending, .unknown => true
  | .recorded, .complete => true
  | .recorded, .unknown => true
  | .unknown, .unknown => true
  | _, _ => false

/-- SRCLINE: management.rs:143-152 -/
structure Action where
  version : UInt8
  ownerReconciled : Bool
  target : Target
  actionId : String
  revocation : Revocation
  cleanup : Cleanup
  deriving DecidableEq, Repr

/-- The only evidence there is, `signed_os_binding`, carries no data.
SRCLINE: management.rs:161-174 -/
structure OriginBinding where
  kind : IdentityKind
  bindingId : String
  label : String
  fingerprint : String
  deriving DecidableEq, Repr

/-- SRCLINE: management.rs:153-160 -/
structure Origin where
  version : UInt8
  requestId : String
  origin : Option OriginBinding
  deriving DecidableEq, Repr

/-- The `serde_json::from_slice` of each reply. -/
structure Replies where
  errorResponse : List UInt8 → Option ErrorResponse
  recovery : List UInt8 → Option Recovery
  inventory : List UInt8 → Option Inventory
  detail : List UInt8 → Option Detail
  prepared : List UInt8 → Option Prepared
  action : List UInt8 → Option Action
  origin : List UInt8 → Option Origin

/-! ## The session -/

/-- What a body asks the provider for. -/
inductive Request where
  | list (after : Option String)
  | detail (target : Target)
  | prepare (target : Target)
  | revoke (target : Target) (actionId ticket password : String)
  | status (target : Target) (actionId : String)
  | origin (requestId : String)
  deriving DecidableEq, Repr

/-- The document of a request, its members sorted. -/
def Request.toJson : Request → Json
  | list after =>
    .obj [("after", (after.map Json.str).getD .null), ("command", .str "identity_list"),
      ("limit", .int 64), ("version", .int 2)]
  | detail target =>
    .obj [("command", .str "identity_detail"), ("target", target.toJson), ("version", .int 2)]
  | prepare target =>
    .obj [("command", .str "identity_prepare"), ("target", target.toJson), ("version", .int 2)]
  | revoke target actionId ticket password =>
    .obj [("action_id", .str actionId), ("command", .str "identity_revoke"),
      ("password", .str password), ("target", target.toJson), ("ticket", .str ticket),
      ("version", .int 2)]
  | status target actionId =>
    .obj [("action_id", .str actionId), ("command", .str "identity_status"),
      ("target", target.toJson), ("version", .int 2)]
  | origin requestId =>
    .obj [("command", .str "request_origin"), ("request_id", .str requestId), ("version", .int 2)]

/-- The bytes handed to the TLS adapter. -/
def Request.body (request : Request) : List UInt8 := request.toJson.toVec

structure Work where
  token : ℕ
  request : Request
  deriving DecidableEq, Repr

/-- SRCLINE: management.rs:175-182 -/
structure Flight where
  token : ℕ
  epoch : ℕ
  command : Command
  target : Target
  after : String
  started : ℕ
  deriving DecidableEq, Repr

/-- SRCLINE: management.rs:183-186 -/
structure Ticket where
  prepared : Prepared
  started : ℕ
  deriving DecidableEq, Repr

/-- SRCLINE: management.rs:187-211 -/
structure Session where
  configured : Bool
  epoch : ℕ
  serial : ℕ
  flight : Option Flight
  ticket : Option Ticket
  recovery : Option Recovery
  identities : List ManagedIdentity
  detail : Option ManagedIdentity
  next : String
  refreshed : Option ℕ
  state : InventoryState
  outcome : Outcome
  providerFingerprint : String
  configuredExecution : Bool
  availableExecution : Bool
  actionId : String
  actionTarget : String
  revocation : String
  cleanup : String
  message : String
  originId : String
  originText : String
  deriving DecidableEq, Repr

/-- `ManagementSession::default()`. -/
def Session.initial : Session where
  configured := false
  epoch := 0
  serial := 0
  flight := none
  ticket := none
  recovery := none
  identities := []
  detail := none
  next := ""
  refreshed := none
  state := .unavailable
  outcome := .none
  providerFingerprint := ""
  configuredExecution := false
  availableExecution := false
  actionId := ""
  actionTarget := ""
  revocation := ""
  cleanup := ""
  message := ""
  originId := ""
  originText := ""

/-- SRCLINE: management.rs:247-260 -/
def Session.invalidate (s : Session) : Session :=
  { s with
    epoch := s.epoch + 1
    ticket := none
    identities := []
    detail := none
    next := ""
    refreshed := none
    providerFingerprint := ""
    availableExecution := false
    configuredExecution := false
    originId := ""
    originText := ""
    state := .stale }

/-- What `configure` reads from the saved text.
SRCLINE: management.rs:217-229 -/
def savedRecovery (R : Replies) (saved : String) : Except String (Option Recovery) :=
  if saved.isEmpty then .ok none
  else if 512 < saved.utf8ByteSize then .error "Invalid recovery"
  else
    match decode R.recovery (bytes saved) with
    | none => .error "Provider returned an invalid response."
    | some r => if r.valid then .ok (some r) else .error "Invalid recovery"

/-- SRCLINE: management.rs:213-246 -/
def Session.configure (R : Replies) (s : Session) (saved : String) : Except String Unit × Session :=
  if s.flight.isSome || s.recovery.isSome then
    (.error "Resolve original administrative action first.", s)
  else
    match savedRecovery R saved with
    | .error error => (.error error, s)
    | .ok recovery =>
      (.ok (), { s.invalidate with
        recovery
        configured := true
        message := if recovery.isSome then
            "Administrative outcome unknown. Check the original action only."
          else "Refresh authoritative provider identities."
        outcome := .none
        actionId := (recovery.map (·.actionId)).getD ""
        actionTarget := (recovery.map (·.target.key)).getD ""
        revocation := ""
        cleanup := "" })

/-- Seconds as nanoseconds. -/
def seconds (n : ℕ) : ℕ := n * 1000000000

/-- A ticket within its time. -/
def Ticket.fresh (t : Ticket) (now : ℕ) : Bool :=
  decide (now - t.started < seconds t.prepared.validForSeconds.toNat)

/-- SRCLINE: management.rs:261-271 -/
def Session.canRevoke (s : Session) (now : ℕ) : Bool :=
  s.flight.isNone && s.recovery.isNone &&
    s.ticket.any fun t => t.fresh now && s.detail = some t.prepared.identity

/-- SRCLINE: api/management.rs:66-86 -/
structure Snapshot where
  state : InventoryState
  outcome : Outcome
  busy : Bool
  identities : List ManagedIdentity
  detail : Option ManagedIdentity
  canRevoke : Bool
  hasNext : Bool
  providerFingerprint : String
  executionConfigured : Bool
  executionAvailable : Bool
  recovery : String
  actionId : String
  actionTarget : String
  revocation : String
  cleanup : String
  message : String
  originId : String
  originText : String
  deriving DecidableEq, Repr

/-- SRCLINE: management.rs:291-315 -/
def Session.project (s : Session) (now : ℕ) : Snapshot where
  state := s.state
  outcome := s.outcome
  busy := s.flight.isSome
  identities := s.identities.map ManagedIdentity.projection
  detail := s.detail.map ManagedIdentity.projection
  canRevoke := s.canRevoke now
  hasNext := !s.next.isEmpty
  providerFingerprint := s.providerFingerprint
  executionConfigured := s.configuredExecution
  executionAvailable := s.availableExecution
  recovery := (s.recovery.map Recovery.text).getD ""
  actionId := s.actionId
  actionTarget := s.actionTarget
  revocation := s.revocation
  cleanup := s.cleanup
  message := s.message
  originId := s.originId
  originText := s.originText

/-- The clock is read for the ticket, for the inventory and for `can_revoke`.
SRCLINE: management.rs:272-317 -/
def Session.snapshot (s : Session) (first second third : ℕ) : Snapshot × Session :=
  let s := if s.ticket.any (!·.fresh first) then
      { s with ticket := none, message := "Confirmation expired. Review this identity again." }
    else s
  let s := if s.refreshed.any (fun read => decide (seconds 30 ≤ second - read)) then
      { s with
        identities := []
        detail := none
        ticket := none
        next := ""
        refreshed := none
        state := .stale
        availableExecution := false }
    else s
  (s.project third, s)

/-- SRCLINE: management.rs:361-365 -/
def Session.refusesRevoke (s : Session) (target : Target) (password : String) (now : ℕ) : Bool :=
  !s.canRevoke now || !target.valid || password.isEmpty || decide (4096 < password.utf8ByteSize)

/-- The request of a command, with the target and the cursor of its flight.
SRCLINE: management.rs:333-410 -/
def Session.compose (s : Session) (command : Command) (target : Target) (password : String)
    (now : ℕ) : Except String (Request × Target × String) × Session :=
  match command with
  | .list => (.ok (.list none, target, ""), s.invalidate)
  | .next =>
    if s.next.isEmpty then (.error "No next page", s)
    else (.ok (.list (some s.next), target, s.next), s.invalidate)
  | .detail =>
    if !target.valid then (.error "Invalid target", s)
    else (.ok (.detail target, target, ""), s.invalidate)
  | .prepare =>
    if !target.valid then (.error "Invalid target", s)
    else (.ok (.prepare target, target, ""), s.invalidate)
  | .revoke =>
    if s.refusesRevoke target password now then
      (.error "Fresh exact-target review and password required.", s)
    else
      match s.ticket with
      | none => (.error "ticket", s)
      | some ticket =>
        if ticket.prepared.identity.target ≠ target then (.error "Target changed", s)
        else
          (.ok (.revoke target ticket.prepared.actionId ticket.prepared.ticket password, target, ""),
            { s.invalidate with
              actionId := ticket.prepared.actionId
              actionTarget := target.key
              recovery := some { target, actionId := ticket.prepared.actionId }
              revocation := "unknown"
              cleanup := "unknown" })
  | .status =>
    match s.recovery with
    | none => (.error "No original action", s)
    | some r => (.ok (.status r.target r.actionId, r.target, ""), s)
  | .origin =>
    if !validId target.id then (.error "Invalid request", s)
    else (.ok (.origin target.id, target, ""), { s with originId := "", originText := "" })

/-- The size limit, the token and the flight.
SRCLINE: management.rs:411-440 -/
def Session.send (s : Session) (command : Command) (request : Request) (target : Target)
    (after : String) (now : ℕ) : Except String Work × Session :=
  if REQUEST_LIMIT < request.body.length then
    (.error "Request too large; not sent", if command = .revoke then { s with recovery := none } else s)
  else if s.serial = u32Max.toNat then (.error "Operation limit", s)
  else
    (.ok { token := s.serial + 1, request },
      { s with
        serial := s.serial + 1
        flight := some {
          token := s.serial + 1
          epoch := s.epoch
          command
          target
          after
          started := now }
        outcome := .none
        message := "Contacting provider…" })

/-- SRCLINE: management.rs:318-441 -/
def Session.begin (s : Session) (command : Command) (kind : IdentityKind) (id password : String)
    (first second : ℕ) : Except String Work × Session :=
  if !s.configured || s.flight.isSome then (.error "Management unavailable or busy.", s)
  else if s.recovery.isSome ∧ command ≠ .status then (.error "Check original action only.", s)
  else
    match s.compose command { kind, id } password first with
    | (.error error, s) => (.error error, s)
    | (.ok (request, target, after), s) => s.send command request target after second

/-! ## Replies -/

def Command.isAction : Command → Bool
  | revoke | status => true
  | _ => false

/-- SRCLINE: management.rs:455-479 -/
def Session.rejected (s : Session) (flight : Flight) (error : ErrorCode) : Session :=
  let s := { s with
    ticket := none
    outcome := if error = ErrorCode.invalidRequest then .unsupported else .rejected }
  let s := if !flight.command.isAction then
      { s.invalidate with state := if error = ErrorCode.unauthorized then .unauthorized else .unavailable }
    else s
  if flight.command = .revoke ∧ error.definiteRejection = true then
    { s with
      recovery := none
      revocation := "not_recorded"
      cleanup := "not_applicable"
      message := "Revocation rejected before mutation. A fresh review and password are required." }
  else
    { s with
      message := if flight.command.isAction then
          "Outcome unknown. Check the original action. Revoked clients may need the provider owner's console."
        else
          "Management unavailable or unauthorized. Enrollment does not grant administration." }

/-- The rows of an inventory, each after the one before it; the last key.
SRCLINE: management.rs:515-521 -/
def rows : List ManagedIdentity → List String → String → Option String
  | [], _, previous => some previous
  | row :: rest, seen, previous =>
    let key := row.target.key
    if !row.valid || seen.contains key || !decide (previous < key) then none
    else rows rest (key :: seen) key

/-- SRCLINE: management.rs:505-542 -/
def Session.acceptInventory (s : Session) (flight : Flight) (r : Inventory) (now : ℕ) :
    Option Session :=
  if r.version ≠ 2 || decide (64 < r.identities.length) || !validHex r.provider.fingerprint ||
      (r.provider.executionAvailable && !r.provider.executionConfigured) then none
  else
    match rows r.identities [] flight.after with
    | none => none
    | some previous =>
      if decide (1 < (r.identities.filter (·.thisClient)).length) ||
          r.nextCursor.any (fun n => r.identities.length ≠ 64 || n ≠ previous) then none
      else some { s with
        identities := r.identities
        next := r.nextCursor.getD ""
        refreshed := some now
        providerFingerprint := r.provider.fingerprint
        configuredExecution := r.provider.executionConfigured
        availableExecution := r.provider.executionAvailable
        state := if r.identities.isEmpty then .empty else .ready
        message := "Provider records · this page is a fresh read, not an atomic multi-page snapshot. Refresh within 30 seconds." }

/-- SRCLINE: management.rs:543-557 -/
def Session.acceptDetail (s : Session) (flight : Flight) (r : Detail) (now : ℕ) : Option Session :=
  if r.version ≠ 2 || !r.identity.valid || r.identity.target ≠ flight.target then none
  else some { s with
    state := if r.identity.trust = .revoked then .revoked else .ready
    detail := some r.identity
    refreshed := some now
    message := "Identity read from provider. Review consequences before revoking." }

/-- SRCLINE: management.rs:558-580 -/
def Session.acceptPrepared (s : Session) (flight : Flight) (r : Prepared) (first second : ℕ) :
    Option Session :=
  if r.version ≠ 2 || !r.identity.valid || r.identity.target ≠ flight.target ||
      r.identity.trust ≠ .enabled || !validId r.actionId || !validHex r.ticket ||
      !(decide (1 ≤ r.validForSeconds.toNat) && decide (r.validForSeconds.toNat ≤ 55)) ||
      decide (seconds r.validForSeconds.toNat ≤ first - flight.started) then none
  else some { s with
    detail := some r.identity
    refreshed := some second
    ticket := some { prepared := r, started := flight.started }
    state := .ready
    message := "Fresh password authorizes only this exact revocation. Confirmation expires within 55 seconds." }

/-- What an action reply says that ends the recovery. -/
def Action.settled (r : Action) : Bool :=
  r.ownerReconciled || (r.revocation = .notRecorded && r.cleanup = .notApplicable) ||
    (r.revocation = .recorded && r.cleanup = .complete)

/-- SRCLINE: management.rs:607-620 -/
def Action.message (r : Action) : String :=
  if r.ownerReconciled then
    "The provider owner separately confirmed the target revoked and provider-owned cleanup complete. The original action's outcome remains as recorded above; it was not replayed."
  else if r.revocation = .notRecorded && r.cleanup = .notApplicable then
    "The provider confirmed this action made no change. A fresh review is required."
  else if r.revocation = .recorded && r.cleanup = .complete then
    "Revocation recorded; provider-owned cleanup confirmed. Delivered secrets and consumer programs are not recalled or terminated."
  else
    "Administrative outcome remains unresolved. Only the original action status can be checked; no command is replayed."

/-- SRCLINE: management.rs:581-621 -/
def Session.acceptAction (s : Session) (r : Action) : Option Session :=
  match s.recovery with
  | none => none
  | some expected =>
    if r.version ≠ 2 || r.target ≠ expected.target || r.actionId ≠ expected.actionId ||
        !validActionFacts r.revocation r.cleanup then none
    else some { s with
      revocation := r.revocation.wire
      cleanup := r.cleanup.wire
      recovery := if r.settled then none else s.recovery
      message := r.message }

/-- SRCLINE: management.rs:627-641 -/
def originText : Option OriginBinding → Option String
  | some origin =>
    if origin.kind ≠ .requesterAgent || !validId origin.bindingId || !validHex origin.fingerprint ||
        origin.label.isEmpty || decide (128 < origin.label.utf8ByteSize) ||
        origin.label.toList.any isControl then none
    else some ("Authenticated requester-agent binding: " ++ visible origin.label ++ "\nBinding ID: " ++
      origin.bindingId ++ "\nPublic-key SHA-256: " ++ origin.fingerprint ++
      "\nEvidence: signed request and OS binding at admission. This does not establish a physical device.")
  | none =>
    some "Unavailable: no authenticated origin snapshot for this request. Labels do not prove origin."

/-- SRCLINE: management.rs:622-643 -/
def Session.acceptOrigin (s : Session) (flight : Flight) (r : Origin) : Option Session :=
  if r.version ≠ 2 || r.requestId ≠ flight.target.id then none
  else
    match Management.originText r.origin with
    | none => none
    | some text => some { s with originText := text, originId := r.requestId }

/-- SRCLINE: management.rs:503-646 -/
def Session.accept (R : Replies) (s : Session) (flight : Flight) (bytes : List UInt8)
    (first second : ℕ) : Option Session :=
  match flight.command with
  | .list | .next => (decode R.inventory bytes).bind fun r => s.acceptInventory flight r first
  | .detail => (decode R.detail bytes).bind fun r => s.acceptDetail flight r first
  | .prepare => (decode R.prepared bytes).bind fun r => s.acceptPrepared flight r first second
  | .revoke | .status => (decode R.action bytes).bind s.acceptAction
  | .origin => (decode R.origin bytes).bind (s.acceptOrigin flight)

/-- A reply that is no error and is not accepted.
SRCLINE: management.rs:483-492 -/
def Session.unusable (s : Session) (flight : Flight) : Session :=
  let s := if !flight.command.isAction then { s.invalidate with state := .unavailable } else s
  { s with
    outcome := .invalid
    message := "Unavailable or invalid response. No trust or successful revocation is inferred." }

/-- The error of version 1 that a reply is, if it is one.
SRCLINE: management.rs:455-456 -/
def errorOf (R : Replies) (bytes : List UInt8) : Option ErrorCode :=
  ((decode R.errorResponse bytes).filter fun error => error.version = 1).map (·.error)

/-- SRCLINE: management.rs:442-502 -/
def Session.finish (R : Replies) (s : Session) (token : ℕ) (bytes : List UInt8) (first second : ℕ) :
    Session :=
  match s.flight with
  | none => { s with outcome := .stale }
  | some flight =>
    if flight.token ≠ token then { s with outcome := .stale }
    else
      let s := { s with flight := none }
      if flight.epoch ≠ s.epoch ∧ flight.command.isAction = false then { s with outcome := .stale }
      else
        match errorOf R bytes with
        | some error => s.rejected flight error
        | none =>
          match s.accept R flight bytes first second with
          | none => s.unusable flight
          | some s => { s with outcome := .accepted }

/-! ## Runs -/

/-- A call on the session, with the readings of the monotonic clock. -/
inductive Call where
  | configure (saved : String)
  | invalidate
  | snapshot (first second third : ℕ)
  | begin (command : Command) (kind : IdentityKind) (id password : String) (first second : ℕ)
  | finish (token : ℕ) (bytes : List UInt8) (first second : ℕ)
  deriving DecidableEq, Repr

/-- What a call returns. -/
inductive Answer where
  | unit
  | configure (result : Except String Unit)
  | snapshot (snapshot : Snapshot)
  | work (result : Except String Work)

/-- One call. -/
def Session.step (R : Replies) (s : Session) : Call → Answer × Session
  | .configure saved => Prod.map .configure id (s.configure R saved)
  | .invalidate => (.unit, s.invalidate)
  | .snapshot first second third => Prod.map .snapshot id (s.snapshot first second third)
  | .begin command kind identity password first second =>
    Prod.map .work id (s.begin command kind identity password first second)
  | .finish token bytes first second => (.unit, s.finish R token bytes first second)

/-- The work a call handed out. -/
def Answer.handed : Answer → Option Work
  | work (.ok w) => some w
  | _ => none

/-- The run of a list of calls. -/
def Session.run (R : Replies) (s : Session) (calls : List Call) : List (Library.Entry Session Call Answer) :=
  Library.trace (Session.step R) s calls

end VaultAccess.Model.Companion.Management
