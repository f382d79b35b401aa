import VaultAccess.Model.Management

/-!
# The companion's Touch ID key session

`companion/rust/src/provider/biometric.rs`: reading, enrolling and revoking the Touch ID key
of this device. Its tickets are its own. As in the management session, a run is a list of
calls, the readings of the monotonic clock are part of a call, and the decoders are the fields
of `Replies`; `verifies` is the check of a decoded signature by a decoded key of `p256`.
-/

set_option autoImplicit false

namespace VaultAccess.Model.Companion.Keys

open VaultAccess.Library VaultAccess.Library.Text
open VaultAccess.Model.Companion.Management (IdentityKind IdentityRole IdentityTrust Target seconds)

/-- SRCLINE: api/biometric.rs:106-112 -/
inductive KeyCommand where
  | read
  | prepareEnroll
  | prepareRevoke
  deriving DecidableEq, Repr

/-- SRCLINE: api/biometric.rs:114-122 -/
inductive KeyState where
  | unknown
  | notEnrolled
  | enrolled
  | unsupported
  deriving DecidableEq, Repr

/-- SRCLINE: api/biometric.rs:124-139 -/
inductive KeyOutcome where
  | none
  | accepted
  | enrolled
  | revoked
  | passwordRejected
  | rateLimited
  | stale
  | rejected
  | unsupported
  | unknown
  | invalid
  deriving DecidableEq, Repr

/-- SRCLINE: biometric.rs:23-28 -/
inductive Operation where
  | enroll
  | revoke
  deriving DecidableEq, Repr

def Operation.wire : Operation → String
  | enroll => "enroll"
  | revoke => "revoke"

/-- SRCLINE: biometric.rs:29-42 -/
structure Prepared where
  version : UInt8
  operation : Operation
  target : Target
  actionId : String
  ticket : String
  generation : ℕ
  validForSeconds : UInt32
  providerIdentity : String
  biometricKeyId : Option String
  deriving DecidableEq, Repr

/-- SRCLINE: biometric.rs:43-51 -/
structure Enrolled where
  version : UInt8
  operation : Operation
  target : Target
  actionId : String
  biometricKeyId : String
  deriving DecidableEq, Repr

/-- SRCLINE: biometric.rs:52-61 -/
structure Revoked where
  version : UInt8
  operation : Operation
  target : Target
  actionId : String
  revokedKeyId : Option String
  deriving DecidableEq, Repr

/-- SRCLINE: biometric.rs:69-82 -/
structure IdentityV3 where
  kind : IdentityKind
  id : String
  label : String
  fingerprint : String
  roles : List IdentityRole
  trust : IdentityTrust
  thisClient : Bool
  biometricKeyId : Option String
  deriving DecidableEq, Repr

/-- SRCLINE: biometric.rs:62-68 -/
structure Detail where
  version : UInt8
  identity : IdentityV3
  generation : ℕ
  deriving DecidableEq, Repr

/-- The `serde_json::from_slice` of each reply. -/
structure Replies where
  errorResponse : List UInt8 → Option ErrorResponse
  detail : List UInt8 → Option Detail
  prepared : List UInt8 → Option Prepared
  enrolled : List UInt8 → Option Enrolled
  revoked : List UInt8 → Option Revoked
  verifies : List UInt8 → List UInt8 → List UInt8 → Bool

/-- SRCLINE: approval_v2.rs:116-118, 137-140 -/
def keyId (P : Packages) (publicKey : List UInt8) : String :=
  String.ofList (hex (P.sha256 publicKey).toList)

/-- SRCLINE: approval_v2.rs:187-196 -/
def verify (P : Packages) (R : Replies) (publicKey message signature : List UInt8) : Bool :=
  validPublicKey P publicKey && validSignature P signature && R.verifies publicKey message signature

/-! ## The session -/

/-- What a body asks the provider for. -/
inductive Request where
  | read (target : Target)
  | prepare (operation : Operation) (target : Target)
  | enroll (actionId ticket password : String) (publicKey signature : List UInt8)
  | revoke (target : Target) (actionId ticket password : String)
  deriving DecidableEq, Repr

/-- The document of a request, its members sorted. -/
def Request.toJson : Request → Json
  | read target =>
    .obj [("command", .str "identity_detail"), ("target", target.toJson), ("version", .int 3)]
  | prepare operation target =>
    .obj [("command", .str "biometric_prepare"), ("operation", .str operation.wire),
      ("target", target.toJson), ("version", .int 2)]
  | enroll actionId ticket password publicKey signature =>
    .obj [("action_id", .str actionId), ("command", .str "biometric_enroll"),
      ("enroll_signature", .str (encodeUrlSafe signature)), ("password", .str password),
      ("public_key", .str (encodeUrlSafe publicKey)), ("ticket", .str ticket), ("version", .int 2)]
  | revoke target actionId ticket password =>
    .obj [("action_id", .str actionId), ("command", .str "biometric_revoke"),
      ("password", .str password), ("target", target.toJson), ("ticket", .str ticket),
      ("version", .int 2)]

/-- The bytes handed to the TLS adapter. -/
def Request.body (request : Request) : List UInt8 := request.toJson.toVec

/-- The work handed out, with the request its body is the text of. -/
structure Work where
  token : ℕ
  request : Request
  deriving DecidableEq, Repr

/-- SRCLINE: biometric.rs:83-89 -/
inductive Sent where
  | read
  | prepare (operation : Operation)
  | enroll
  | revoke
  deriving DecidableEq, Repr

/-- SRCLINE: biometric.rs:368 -/
def Sent.mutation : Sent → Bool
  | enroll | revoke => true
  | read | prepare _ => false

/-- SRCLINE: biometric.rs:90-97 -/
structure Flight where
  token : ℕ
  epoch : ℕ
  sent : Sent
  actionId : String
  publicKey : List UInt8
  started : ℕ
  deriving DecidableEq, Repr

/-- SRCLINE: biometric.rs:98-101 -/
structure Ticket where
  prepared : Prepared
  started : ℕ
  deriving DecidableEq, Repr

/-- The time of a ticket is over. -/
def Ticket.expired (t : Ticket) (now : ℕ) : Bool :=
  decide (seconds t.prepared.validForSeconds.toNat ≤ now - t.started)

/-- SRCLINE: biometric.rs:102-107 -/
def Ticket.fresh (t : Ticket) (operation : Operation) (now : ℕ) : Bool :=
  t.prepared.operation = operation && !t.expired now

/-- SRCLINE: biometric.rs:109-121 -/
structure Session where
  pin : Option Pin
  epoch : ℕ
  serial : ℕ
  flight : Option Flight
  ticket : Option Ticket
  enrollKey : Option (List UInt8)
  state : KeyState
  keyId : String
  outcome : KeyOutcome
  message : String
  deriving DecidableEq, Repr

/-- `BiometricKeySession::default()`. -/
def Session.initial : Session where
  pin := none
  epoch := 0
  serial := 0
  flight := none
  ticket := none
  enrollKey := none
  state := .unknown
  keyId := ""
  outcome := .none
  message := ""

/-- SRCLINE: biometric.rs:140-144 -/
def Session.invalidate (s : Session) : Session :=
  { s with epoch := s.epoch + 1, ticket := none, enrollKey := none }

/-- The state read from the provider is forgotten. -/
def Session.forget (s : Session) : Session := { s with state := .unknown, keyId := "" }

/-- SRCLINE: biometric.rs:123-139 -/
def Session.configure (s : Session) (providerIdentity approvalClient : String) :
    Except Refusal Unit × Session :=
  if s.flight.isSome then (.error .busy, s)
  else
    match Pin.new providerIdentity approvalClient with
    | none => (.error .notPinned, s)
    | some pin =>
      (.ok (), { s.invalidate.forget with
        pin := some pin
        outcome := .none
        message := "Read this device's Touch ID key from the provider." })

/-- SRCLINE: biometric.rs:148-155 -/
def Session.reset (s : Session) : Session :=
  { s.invalidate.forget with
    pin := none
    outcome := .none
    message := "Provider changed. Pin it again before managing Touch ID." }

/-- SRCLINE: biometric.rs:158-166 -/
def Session.requirePin (s : Session) (current : Option Pin) : Except Refusal Unit × Session :=
  if s.pin.isSome ∧ s.pin = current then (.ok (), s)
  else (.error .notPinned, if s.pin.isSome then s.reset else s)

/-- The target of this device.
SRCLINE: biometric.rs:167-173 -/
def Session.own (s : Session) : Option Target :=
  s.pin.map fun pin => { kind := .approvalClient, id := pin.approvalClient }

/-- SRCLINE: biometric.rs:174-176 -/
def Session.can (s : Session) (operation : Operation) (now : ℕ) : Bool :=
  s.flight.isNone && s.ticket.any (·.fresh operation now)

/-- SRCLINE: api/biometric.rs:141-152 -/
structure Snapshot where
  configured : Bool
  busy : Bool
  state : KeyState
  keyId : String
  canEnroll : Bool
  canRevoke : Bool
  outcome : KeyOutcome
  message : String
  deriving DecidableEq, Repr

/-- The clock is read for the ticket and for the two operations.
SRCLINE: biometric.rs:177-194 -/
def Session.snapshot (s : Session) (first second third : ℕ) : Snapshot × Session :=
  let s := if s.ticket.any (·.expired first) then
      { s.invalidate with message := "Confirmation expired. Prepare the key operation again." }
    else s
  ({ configured := s.pin.isSome
     busy := s.flight.isSome
     state := s.state
     keyId := s.keyId
     canEnroll := s.can .enroll second
     canRevoke := s.can .revoke third
     outcome := s.outcome
     message := s.message }, s)

/-- The size limit, the token and the flight.
SRCLINE: biometric.rs:335-361 -/
def Session.launch (s : Session) (sent : Sent) (actionId : String) (publicKey : List UInt8)
    (request : Request) (now : ℕ) : Except Refusal Work × Session :=
  if REQUEST_LIMIT < request.body.length then (.error .requestTooLarge, s)
  else if s.serial = u32Max.toNat then (.error .busy, s)
  else
    (.ok { token := s.serial + 1, request },
      { s with
        serial := s.serial + 1
        flight := some {
          token := s.serial + 1
          epoch := s.epoch
          sent
          actionId
          publicKey
          started := now }
        outcome := .none
        message := "Contacting provider…" })

/-- What a command sends.
SRCLINE: biometric.rs:201-217 -/
def KeyCommand.sends (command : KeyCommand) (target : Target) : Sent × Request :=
  match command with
  | read => (.read, .read target)
  | prepareEnroll => (.prepare .enroll, .prepare .enroll target)
  | prepareRevoke => (.prepare .revoke, .prepare .revoke target)

/-- SRCLINE: biometric.rs:195-220 -/
def Session.begin (s : Session) (command : KeyCommand) (now : ℕ) : Except Refusal Work × Session :=
  match s.own with
  | none => (.error .notPinned, s)
  | some target =>
    if s.flight.isSome then (.error .busy, s)
    else
      let (sent, request) := command.sends target
      s.invalidate.launch sent "" [] request now

/-- The transcript of a key under a prepared operation. -/
def Prepared.transcript (P : Packages) (prepared : Prepared) (pin : Pin) (publicKey : List UInt8) :
    Option (List UInt8) :=
  Companion.enrollTranscript P pin.providerIdentity pin.approvalClient publicKey prepared.ticket
    prepared.actionId

/-- SRCLINE: api/biometric.rs:154-158 -/
structure EnrollRequest where
  keyId : String
  transcript : List UInt8
  deriving DecidableEq, Repr

/-- The pin and the ticket of an operation that can be sent. -/
def Session.ready (s : Session) (operation : Operation) (now : ℕ) : Except Refusal (Pin × Ticket) :=
  match s.pin with
  | none => .error .notPinned
  | some pin =>
    if !s.can operation now then .error .noPreparedOperation
    else
      match s.ticket with
      | none => .error .noPreparedOperation
      | some ticket => .ok (pin, ticket)

/-- SRCLINE: biometric.rs:221-249 -/
def Session.enrollTranscript (P : Packages) (s : Session) (publicKey : List UInt8) (now : ℕ) :
    Except Refusal EnrollRequest × Session :=
  match s.ready .enroll now with
  | .error refusal => (.error refusal, s)
  | .ok (pin, ticket) =>
    if !validPublicKey P publicKey then (.error .invalidPublicKey, s)
    else
      match ticket.prepared.transcript P pin publicKey with
      | none => (.error .malformedBinding, s)
      | some transcript =>
        (.ok { keyId := Keys.keyId P publicKey, transcript },
          { s with enrollKey := some publicKey })

/-- SRCLINE: biometric.rs:264-266, 297-299 -/
def invalidPassword (password : String) : Bool :=
  password.isEmpty || decide (4096 < password.utf8ByteSize)

/-- The ticket is consumed once the body is known to be sendable.
SRCLINE: biometric.rs:312-334 -/
def Session.sendMutation (s : Session) (sent : Sent) (actionId : String) (publicKey : List UInt8)
    (request : Request) (now : ℕ) : Except Refusal Work × Session :=
  if REQUEST_LIMIT < request.body.length then (.error .requestTooLarge, s)
  else s.invalidate.launch sent actionId publicKey request now

/-- SRCLINE: biometric.rs:250-290 -/
def Session.beginEnroll (P : Packages) (R : Replies) (s : Session) (password : String)
    (publicKey signature : List UInt8) (first second : ℕ) : Except Refusal Work × Session :=
  match s.ready .enroll first with
  | .error refusal => (.error refusal, s)
  | .ok (pin, ticket) =>
    if s.enrollKey ≠ some publicKey then (.error .keyMismatch, s)
    else if invalidPassword password then (.error .invalidPassword, s)
    else
      match ticket.prepared.transcript P pin publicKey with
      | none => (.error .malformedBinding, s)
      | some transcript =>
        if !verify P R publicKey transcript signature then (.error .invalidSignature, s)
        else
          s.sendMutation .enroll ticket.prepared.actionId publicKey
            (.enroll ticket.prepared.actionId ticket.prepared.ticket password publicKey signature)
            second

/-- SRCLINE: biometric.rs:291-311 -/
def Session.beginRevoke (s : Session) (password : String) (first second : ℕ) :
    Except Refusal Work × Session :=
  match s.ready .revoke first with
  | .error refusal => (.error refusal, s)
  | .ok (pin, ticket) =>
    if invalidPassword password then (.error .invalidPassword, s)
    else
      s.sendMutation .revoke ticket.prepared.actionId []
        (.revoke { kind := .approvalClient, id := pin.approvalClient } ticket.prepared.actionId
          ticket.prepared.ticket password) second

/-! ## Replies -/

/-- The error of version 1 that a reply is, if it is one.
SRCLINE: biometric.rs:373-374 -/
def errorOf (R : Replies) (bytes : List UInt8) : Option ErrorCode :=
  ((decode R.errorResponse bytes).filter fun error => error.version = 1).map (·.error)

/-- The name of an error code in a reply.
SRCLINE: protocol.rs:215-224 -/
def errorName : ErrorCode → String
  | .invalidRequest => "invalid_request"
  | .unauthorized => "unauthorized"
  | .unavailable => "unavailable"
  | .stale => "stale"
  | .authenticationFailed => "authentication_failed"
  | .rateLimited => "rate_limited"

/-- What an error code means for a read and for a mutation.
SRCLINE: biometric.rs:376-383 -/
def outcomeOf (mutation : Bool) (error : ErrorCode) : KeyOutcome :=
  match mutation, error with
  | false, .invalidRequest => .unsupported
  | _, .authenticationFailed => .passwordRejected
  | _, .rateLimited => .rateLimited
  | _, .stale => .stale
  | true, .unavailable => .unknown
  | _, _ => .rejected

/-- SRCLINE: biometric.rs:392-398 -/
def rejectionMessage : KeyOutcome → String
  | .unsupported => "This provider does not offer Touch ID approval. Password approval continues."
  | .unknown => "Outcome unknown. Read the key state again; nothing was resent."
  | .passwordRejected => "Password not accepted. Prepare again with a fresh password."
  | _ => "Provider refused the key operation. Prepare it again."

/-- SRCLINE: biometric.rs:375-400 -/
def Session.rejected (s : Session) (mutation : Bool) (error : ErrorCode) : Session :=
  let outcome := outcomeOf mutation error
  let s := { s.invalidate with outcome }
  let s := if outcome = .unsupported then { s with state := .unsupported, keyId := "" } else s
  let s := if outcome = .unknown then s.forget else s
  { s with message := rejectionMessage outcome }

/-- SRCLINE: biometric.rs:402-419 -/
def Session.unusable (s : Session) (mutation : Bool) : Session :=
  let s := { s.invalidate with outcome := if mutation then .unknown else .invalid }
  let s := if mutation then s.forget else s
  { s with
    message := if mutation then "Outcome unknown. Read the key state again; nothing was resent."
      else "Unavailable or invalid response. No key state is inferred." }

/-- SRCLINE: biometric.rs:421-434 -/
def Session.recordKey (s : Session) (keyId : Option String) : Option Session :=
  match keyId with
  | some id => if validHex id then some { s with state := .enrolled, keyId := id } else none
  | none => some { s with state := .notEnrolled, keyId := "" }

/-- The checks of a row.
SRCLINE: biometric.rs:441-449 -/
def Detail.valid (r : Detail) (own : Target) : Bool :=
  r.version = 3 && r.identity.kind = .approvalClient && r.identity.id = own.id &&
    r.identity.fingerprint = r.identity.id && r.identity.thisClient && !r.identity.label.isEmpty &&
    decide (r.identity.label.utf8ByteSize ≤ 128) && !r.identity.label.toList.any isControl &&
    (decide (r.identity.trust = .revoked) == r.identity.roles.isEmpty)

/-- The checks of a prepared operation.
SRCLINE: biometric.rs:461-468 -/
def Prepared.valid (r : Prepared) (operation : Operation) (own : Target) (pin : Pin)
    (elapsed : ℕ) : Bool :=
  r.version = 2 && r.operation = operation && r.target = own && validId r.actionId &&
    validHex r.ticket &&
    (decide (1 ≤ r.validForSeconds.toNat) && decide (r.validForSeconds.toNat ≤ 55)) &&
    decide (elapsed < seconds r.validForSeconds.toNat) && r.providerIdentity = pin.providerIdentity

/-- SRCLINE: biometric.rs:483-487 -/
def Enrolled.valid (P : Packages) (r : Enrolled) (own : Target) (flight : Flight) : Bool :=
  r.version = 2 && r.operation = .enroll && r.target = own && r.actionId = flight.actionId &&
    r.biometricKeyId = Keys.keyId P flight.publicKey

/-- SRCLINE: biometric.rs:497-501 -/
def Revoked.valid (r : Revoked) (own : Target) (flight : Flight) : Bool :=
  r.version = 2 && r.operation = .revoke && r.target = own && r.actionId = flight.actionId &&
    r.revokedKeyId.all validHex

/-- SRCLINE: biometric.rs:435-511 -/
def Session.accept (P : Packages) (R : Replies) (s : Session) (flight : Flight)
    (bytes : List UInt8) (now : ℕ) : Option Session := do
  let pin ← s.pin
  let own ← s.own
  match flight.sent with
  | .read =>
    let r ← decode R.detail bytes
    guard (r.valid own)
    let s ← s.recordKey r.identity.biometricKeyId
    pure { s with
      outcome := .accepted
      message := "Touch ID key state read from the provider." }
  | .prepare operation =>
    let r ← decode R.prepared bytes
    guard (r.valid operation own pin (now - flight.started))
    let s ← s.recordKey r.biometricKeyId
    pure { s with
      ticket := some { prepared := r, started := flight.started }
      outcome := .accepted
      message := "Fresh password authorizes only this key operation. Confirmation expires within 55 seconds." }
  | .enroll =>
    let r ← decode R.enrolled bytes
    guard (r.valid P own flight)
    let s ← s.recordKey (some r.biometricKeyId)
    pure { s with
      outcome := .enrolled
      message := "Touch ID approval enabled for this device." }
  | .revoke =>
    let r ← decode R.revoked bytes
    guard (r.valid own flight)
    let s ← s.recordKey none
    pure { s with
      outcome := .revoked
      message := "Touch ID approval disabled. Password approval continues." }

/-- SRCLINE: biometric.rs:362-420 -/
def Session.finish (P : Packages) (R : Replies) (s : Session) (token : ℕ) (bytes : List UInt8)
    (now : ℕ) : Session :=
  match s.flight with
  | none => { s with outcome := .stale }
  | some flight =>
    if flight.token ≠ token then { s with outcome := .stale }
    else
      let s := { s with flight := none }
      if !flight.sent.mutation ∧ flight.epoch ≠ s.epoch then { s with outcome := .stale }
      else
        match errorOf R bytes with
        | some error => s.rejected flight.sent.mutation error
        | none => (s.accept P R flight bytes now).getD (s.unusable flight.sent.mutation)

/-! ## Runs -/

/-- A call on the session, with the readings of the monotonic clock. -/
inductive Call where
  | configure (providerIdentity approvalClient : String)
  | reset
  | requirePin (current : Option Pin)
  | begin (command : KeyCommand) (now : ℕ)
  | enrollTranscript (publicKey : List UInt8) (now : ℕ)
  | beginEnroll (password : String) (publicKey signature : List UInt8) (first second : ℕ)
  | beginRevoke (password : String) (first second : ℕ)
  | snapshot (first second third : ℕ)
  | finish (token : ℕ) (bytes : List UInt8) (now : ℕ)
  deriving DecidableEq, Repr

/-- What a call returns. -/
inductive Answer where
  | unit
  | pinned (result : Except Refusal Unit)
  | work (result : Except Refusal Work)
  | transcript (result : Except Refusal EnrollRequest)
  | snapshot (snapshot : Snapshot)

/-- One call. -/
def Session.step (P : Packages) (R : Replies) (s : Session) : Call → Answer × Session
  | .configure provider client => Prod.map .pinned id (s.configure provider client)
  | .reset => (.unit, s.reset)
  | .requirePin current => Prod.map .pinned id (s.requirePin current)
  | .begin command now => Prod.map .work id (s.begin command now)
  | .enrollTranscript publicKey now => Prod.map .transcript id (s.enrollTranscript P publicKey now)
  | .beginEnroll password publicKey signature first second =>
    Prod.map .work id (s.beginEnroll P R password publicKey signature first second)
  | .beginRevoke password first second => Prod.map .work id (s.beginRevoke password first second)
  | .snapshot first second third => Prod.map .snapshot id (s.snapshot first second third)
  | .finish token bytes now => (.unit, s.finish P R token bytes now)

/-- The work a call handed out. -/
def Answer.handed : Answer → Option Work
  | work (.ok w) => some w
  | _ => none

/-- The run of a list of calls. -/
def Session.run (P : Packages) (R : Replies) (s : Session) (calls : List Call) :
    List (Library.Entry Session Call Answer) :=
  Library.trace (Session.step P R) s calls

end VaultAccess.Model.Companion.Keys
