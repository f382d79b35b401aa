import VaultAccess.Library.Runs
import VaultAccess.Model.Companion

/-!
# The companion's provider session

`companion/rust/src/provider/session.rs`: one foreground session. Every call takes the
session under its mutex, so that a run is a list of calls. The two clocks are read
inside the calls; what they show is part of a call. An instant is counted in
nanoseconds. The epoch is a natural number: the source panics before a `u64` would
wrap.
-/

set_option autoImplicit false

namespace VaultAccess.Model.Companion

open VaultAccess.Library VaultAccess.Library.Text

/-- SRCLINE: api/provider.rs:4-14 -/
inductive Command where
  | session
  | list
  | history
  | review
  | approve
  | deny
  | unlock
  | status
  deriving DecidableEq, Repr

def Command.isDecision : Command → Bool
  | approve | deny => true
  | _ => false

/-- SRCLINE: api/provider.rs:16-24 -/
inductive Outcome where
  | none
  | accepted
  | rejected
  | invalid
  | stale
  deriving DecidableEq, Repr

/-- SRCLINE: api/provider.rs:26-33 -/
inductive StatusProgress where
  | none
  | pending
  | committed
  | terminal
  deriving DecidableEq, Repr

/-- SRCLINE: api/provider.rs:70-77 -/
inductive HistoryState where
  | idle
  | loading
  | available
  | unavailable
  deriving DecidableEq, Repr

/-- SRCLINE: api/biometric.rs:49-60 -/
inductive BiometricSupport where
  | unpinned
  | requested
  | unsupported
  deriving DecidableEq, Repr

/-- SRCLINE: api/biometric.rs:63-82 -/
inductive Biometric where
  | none
  | inFlight
  | approved
  | stale
  | passwordRequired
  | rateLimited
  | rejected
  | outcomeUnknown
  deriving DecidableEq, Repr

/-! ## Requests -/

/-- What a body asks the provider for. -/
inductive Request where
  | session
  | list
  | history (limit : ℕ)
  | review (version : ℕ) (requestId : String)
  | status (requestId : String)
  | unlock (password : String)
  | approve (requestId ticket password : String)
  | deny (requestId ticket : String)
  | proof (requestId : String) (ticket : Option String) (keyId signature : String)
  deriving DecidableEq, Repr

/-- The document of a request. `serde_json` keeps the members of an object sorted. -/
def Request.toJson : Request → Json
  | session => .obj [("command", .str "session"), ("version", .int 1)]
  | list => .obj [("command", .str "list"), ("version", .int 1)]
  | history limit => .obj [("command", .str "history"), ("limit", .int limit), ("version", .int 1)]
  | review version requestId =>
    .obj [("command", .str "review"), ("request_id", .str requestId), ("version", .int version)]
  | status requestId =>
    .obj [("command", .str "status"), ("request_id", .str requestId), ("version", .int 1)]
  | unlock password =>
    .obj [("command", .str "unlock"), ("password", .str password), ("version", .int 1)]
  | approve requestId ticket password =>
    .obj [("command", .str "decision"), ("decision", .str "approve"), ("password", .str password),
      ("request_id", .str requestId), ("ticket", .str ticket), ("version", .int 1)]
  | deny requestId ticket =>
    .obj [("command", .str "decision"), ("decision", .str "deny"), ("request_id", .str requestId),
      ("ticket", .str ticket), ("version", .int 1)]
  | proof requestId ticket keyId signature =>
    .obj [("command", .str "decision"), ("decision", .str "approve"),
      ("proof", .obj [("key_id", .str keyId), ("signature", .str signature)]),
      ("request_id", .str requestId), ("ticket", (ticket.map Json.str).getD .null),
      ("version", .int 2)]

/-- The bytes handed to the TLS adapter. -/
def Request.body (request : Request) : List UInt8 := request.toJson.toVec

/-- The request a decision is about and the ticket it carries. -/
def Request.decides : Request → Option (String × Option String)
  | approve requestId ticket _ => some (requestId, some ticket)
  | deny requestId ticket => some (requestId, some ticket)
  | proof requestId ticket _ _ => some (requestId, ticket)
  | _ => none

/-- SRCLINE: api/provider.rs:36-39 -/
structure Work where
  token : ℕ
  request : Request
  deriving DecidableEq, Repr

/-! ## The session -/

/-- What the two clocks show. -/
structure Reading where
  instant : ℕ
  unixSeconds : ℕ
  deriving DecidableEq, Repr

/-- SRCLINE: session.rs:14-19 -/
structure Reviewed where
  response : ReviewResponse
  started : ℕ
  signed : Option (Json × Option ApprovalBinding)

/-- SRCLINE: session.rs:20-29 -/
structure Flight where
  token : ℕ
  epoch : ℕ
  command : Command
  id : String
  started : ℕ
  v2 : Bool
  proof : Bool
  deriving DecidableEq, Repr

/-- SRCLINE: session.rs:34-60 -/
structure Session where
  configured : Bool
  epoch : ℕ
  serial : ℕ
  authority : Option (SessionState × ℕ)
  requests : List String
  historyState : HistoryState
  history : List HistoryEvent
  reviewed : Option Reviewed
  flight : Option Flight
  unresolved : Option String
  statusId : String
  statusText : String
  message : String
  outcome : Outcome
  statusProgress : StatusProgress
  pin : Option Pin
  support : BiometricSupport
  prepared : Option ℕ
  biometric : Biometric
  proofId : Option String
  unsupportedProvider : Option String

/-- `ProviderSession::default()`. -/
def Session.initial : Session where
  configured := false
  epoch := 0
  serial := 0
  authority := none
  requests := []
  historyState := .idle
  history := []
  reviewed := none
  flight := none
  unresolved := none
  statusId := ""
  statusText := ""
  message := ""
  outcome := .none
  statusProgress := .none
  pin := none
  support := .unpinned
  prepared := none
  biometric := .none
  proofId := none
  unsupportedProvider := none

/-- SRCLINE: session.rs:87-93 -/
def Session.invalidate (s : Session) : Session :=
  { s with
    epoch := s.epoch + 1
    reviewed := none
    prepared := none
    history := []
    historyState := .idle }

/-- SRCLINE: session.rs:62-86 -/
def Session.configure (s : Session) (uncertainId : String) : Except String Unit × Session :=
  if s.flight.isSome || s.unresolved.isSome then
    (.error "Resolve the original provider decision before changing setup.", s)
  else
    let s := s.invalidate
    if !uncertainId.isEmpty && !validId uncertainId then
      (.error "Invalid recovery identifier.", s)
    else
      (.ok (), { s with
        unresolved := if uncertainId.isEmpty then none else some uncertainId
        configured := true
        pin := none
        support := .unpinned
        biometric := .none
        proofId := none
        authority := none
        requests := []
        statusId := ""
        statusText := ""
        statusProgress := .none
        outcome := .none
        message :=
          if uncertainId.isEmpty then "Connect to refresh provider authority."
          else "Restored an uncertain decision. Refresh its original status; no decision will be resent." })

/-- 55 seconds. -/
def REVIEW_LIFETIME : ℕ := 55 * 1000000000

/-- A review that expired by one of the clocks. -/
def Reviewed.expired (r : Reviewed) (reading : Reading) : Bool :=
  decide (REVIEW_LIFETIME ≤ reading.instant - r.started) ||
    decide (r.response.review.expiresAtUnixSeconds ≤ reading.unixSeconds)

/-- SRCLINE: session.rs:94-104 -/
def Session.canDecide (s : Session) (reading : Reading) : Bool :=
  s.flight.isNone && s.unresolved.isNone &&
    s.reviewed.any fun r =>
      r.response.ticket.isSome && r.response.review.status = .pending &&
        s.authority = some (.unlocked, r.response.generation) &&
        decide (reading.instant - r.started < REVIEW_LIFETIME) &&
        decide (reading.unixSeconds < r.response.review.expiresAtUnixSeconds)

/-- SRCLINE: api/provider.rs:109-128 -/
structure Snapshot where
  outcome : Outcome
  statusProgress : StatusProgress
  configured : Bool
  busy : Bool
  locked : Bool
  authorityKnown : Bool
  historyState : HistoryState
  history : List HistoryEvent
  requests : List String
  reviewText : String
  review : Option ProviderReview
  reviewId : String
  canDecide : Bool
  uncertainId : String
  statusId : String
  statusText : String
  message : String

/-- What a snapshot shows of a session.
SRCLINE: session.rs:113-143 -/
def Session.project (s : Session) (reading : Reading) : Snapshot where
  outcome := s.outcome
  statusProgress := s.statusProgress
  configured := s.configured
  busy := s.flight.isSome
  locked := s.authority.map Prod.fst ≠ some .unlocked
  authorityKnown := s.authority.isSome
  historyState := s.historyState
  history := s.history
  requests := s.requests
  reviewText := (s.reviewed.map fun r => r.response.review.visible).getD ""
  review := s.reviewed.map fun r => r.response.review.projection
  reviewId := (s.reviewed.map fun r => r.response.review.id).getD ""
  canDecide := s.canDecide reading
  uncertainId := s.unresolved.getD ""
  statusId := s.statusId
  statusText := s.statusText
  message := s.message

/-- The clocks are read for the expiry and again for `can_decide`.
SRCLINE: session.rs:105-143 -/
def Session.snapshot (s : Session) (first second : Reading) : Snapshot × Session :=
  let s := if s.reviewed.any (·.expired first) then
      { s.invalidate with message := "Review expired. Select the request again." }
    else s
  (s.project second, s)

/-- The refusals before a request is built.
SRCLINE: session.rs:150-167 -/
def Session.refuses (s : Session) (command : Command) (id password : String) : Option String :=
  if !s.configured || s.flight.isSome then some "Provider is unavailable or busy."
  else if (command = .review ∨ command = .status) ∧ validId id = false then
    some "Invalid request identifier."
  else if (command = .approve ∨ command = .unlock) ∧
      (password.isEmpty = true ∨ 4096 < password.utf8ByteSize) then
    some "Enter a fresh password (1–4096 UTF-8 bytes)."
  else if s.unresolved.isSome ∧ (command ≠ .status ∨ s.unresolved ≠ some id) then
    some "Outcome uncertain. Refresh the original request status; no decision will be resent."
  else none

/-- What a sent decision leaves behind.
SRCLINE: session.rs:219-224 -/
def Session.decided (s : Session) (requestId : String) : Session :=
  { s.invalidate with
    unresolved := some requestId
    proofId := none
    biometric := .none
    statusId := requestId
    statusText := "Decision in flight; it may have committed." }

/-- The request of a command, with the identifier of its flight.
SRCLINE: session.rs:168-226 -/
def Session.compose (s : Session) (command : Command) (id password : String) (reading : Reading) :
    Except String (Request × String) × Session :=
  match command with
  | .session => (.ok (.session, id), s)
  | .list => (.ok (.list, id), s)
  | .history =>
    if s.authority.map Prod.fst ≠ some .unlocked then
      (.error "Refresh unlocked provider authority before reading history.", s)
    else (.ok (.history DEFAULT_HISTORY_LIMIT, id), { s with history := [], historyState := .loading })
  | .review =>
    (.ok (.review (if s.support = .requested then 2 else 1) id, id), s.invalidate)
  | .status => (.ok (.status id, id), s)
  | .unlock => (.ok (.unlock password, id), { s.invalidate with authority := none, requests := [] })
  | .approve =>
    match s.canDecide reading, s.reviewed, s.reviewed.bind (·.response.ticket) with
    | true, some r, some ticket =>
      (.ok (.approve r.response.review.id ticket password, r.response.review.id),
        s.decided r.response.review.id)
    | _, _, _ => (.error "A fresh complete review is required.", s.invalidate)
  | .deny =>
    match s.canDecide reading, s.reviewed, s.reviewed.bind (·.response.ticket) with
    | true, some r, some ticket =>
      (.ok (.deny r.response.review.id ticket, r.response.review.id),
        s.decided r.response.review.id)
    | _, _, _ => (.error "A fresh complete review is required.", s.invalidate)

/-- The size limit, the token and the flight.
SRCLINE: session.rs:227-261 -/
def Session.send (s : Session) (command : Command) (request : Request) (requestId : String)
    (reading : Reading) : Except String Work × Session :=
  if REQUEST_LIMIT < request.body.length then
    (.error "Request exceeded the size limit.",
      if command.isDecision then
        { s with
          unresolved := none
          statusText := "Decision not sent: request exceeded the size limit." }
      else s)
  else if s.serial = u32Max.toNat then (.error "Provider operation limit reached.", s)
  else
    (.ok { token := s.serial + 1, request },
      { s with
        serial := s.serial + 1
        flight := some {
          token := s.serial + 1
          epoch := s.epoch
          command
          id := requestId
          started := reading.instant
          v2 := match request with
            | .review version _ => version = 2
            | _ => false
          proof := false }
        message := "Contacting provider…"
        outcome := .none })

/-- SRCLINE: session.rs:144-262 -/
def Session.begin (s : Session) (command : Command) (id password : String) (first second : Reading) :
    Except String Work × Session :=
  match s.refuses command id password with
  | some error => (.error error, s)
  | none =>
    match s.compose command id password first with
    | (.error error, s) => (.error error, s)
    | (.ok (request, requestId), s) => s.send command request requestId second

/-- SRCLINE: session.rs:265-284 -/
def Session.setPin (s : Session) (providerIdentity approvalClient : String) :
    Except Refusal Unit × Session :=
  if !s.configured then (.error .notConfigured, s)
  else if s.flight.isSome then (.error .busy, s)
  else
    match Pin.new providerIdentity approvalClient with
    | none => (.error .notPinned, s)
    | some pin =>
      let s := if s.pin ≠ some pin then
          { s.invalidate with
            support := if s.unsupportedProvider = some pin.providerIdentity then .unsupported
              else .requested }
        else s
      (.ok (), { s with pin := some pin })

/-- The review a transcript is computed from. -/
def Reviewed.received (r : Reviewed) (signed : Json × Option ApprovalBinding) : ReceivedReview where
  rawReview := signed.1
  review := r.response.review
  ticket := r.response.ticket
  generation := r.response.generation
  binding := signed.2

/-- SRCLINE: session.rs:285-314 -/
def Session.signingTranscript (P : Packages) (s : Session) (reading : Reading) :
    Except Refusal (String × SigningTranscript) :=
  if !s.configured then .error .notConfigured
  else if s.flight.isSome then .error .busy
  else if s.unresolved.isSome then .error .outcomeUncertain
  else
    match s.canDecide reading, s.reviewed with
    | true, some r =>
      match r.signed with
      | none => .error .bindingUnavailable
      | some signed => do
        let transcript ← approvalTranscript P (r.received signed) s.pin
        .ok (r.response.review.id, transcript)
    | _, _ => .error .noDecidableReview

/-- SRCLINE: api/biometric.rs:100-107 -/
structure SigningRequest where
  handle : ℕ
  requestId : String
  keyId : String
  transcript : List UInt8
  deriving DecidableEq, Repr

/-- SRCLINE: session.rs:339-348 -/
def Session.prepareBiometric (P : Packages) (s : Session) (reading : Reading) :
    Except Refusal SigningRequest × Session :=
  match s.signingTranscript P reading with
  | .error refusal => (.error refusal, s)
  | .ok (requestId, signing) =>
    (.ok { handle := s.epoch, requestId, keyId := signing.keyId, transcript := signing.transcript },
      { s with prepared := some s.epoch })

/-- The checks of `begin_biometric` before the review is taken.
SRCLINE: session.rs:357-372 -/
def Session.proves (P : Packages) (s : Session) (handle : ℕ) (keyId : String)
    (signature : List UInt8) (reading : Reading) : Except Refusal (Reviewed × String × String) :=
  if s.prepared ≠ some handle ∨ handle ≠ s.epoch then
    if s.flight.isSome then .error .busy else .error .staleHandle
  else
    match s.signingTranscript P reading with
    | .error refusal => .error refusal
    | .ok (requestId, signing) =>
      if keyId ≠ signing.keyId then .error .keyMismatch
      else if !validSignature P signature then .error .invalidSignature
      else if s.serial = u32Max.toNat then .error .busy
      else
        match s.reviewed with
        | none => .error .noDecidableReview
        | some r => .ok (r, requestId, signing.keyId)

/-- SRCLINE: session.rs:351-408 -/
def Session.beginBiometric (P : Packages) (s : Session) (handle : ℕ) (keyId : String)
    (signature : List UInt8) (first second : Reading) : Except Refusal Work × Session :=
  match s.proves P handle keyId signature first with
  | .error refusal => (.error refusal, s)
  | .ok (review, requestId, keyId) =>
    let request := Request.proof requestId review.response.ticket keyId (encodeUrlSafe signature)
    let s := s.invalidate
    if REQUEST_LIMIT < request.body.length then
      (.error .requestTooLarge,
        { s with statusText := "Decision not sent: request exceeded the size limit." })
    else
      (.ok { token := s.serial + 1, request },
        { s with
          unresolved := some requestId
          proofId := some requestId
          biometric := .inFlight
          statusId := requestId
          statusText := "Decision in flight; it may have committed."
          serial := s.serial + 1
          flight := some {
            token := s.serial + 1
            epoch := s.epoch
            command := .approve
            id := requestId
            started := second.instant
            v2 := true
            proof := true }
          message := "Contacting provider…"
          outcome := .none })

/-! ## Replies -/

/-- SRCLINE: session.rs:424-430 -/
def Biometric.ofError : ErrorCode → Biometric
  | .authenticationFailed => passwordRequired
  | .rateLimited => rateLimited
  | .stale => stale
  | .invalidRequest | .unauthorized => rejected
  | .unavailable => outcomeUnknown

/-- The Touch ID result after an error.
SRCLINE: session.rs:423-435 -/
def Session.proofRejected (s : Session) (flight : Flight) (error : ErrorCode) : Session :=
  if flight.proof then
    { s with
      biometric := Biometric.ofError error
      proofId := if Biometric.ofError error ≠ .outcomeUnknown then none else s.proofId }
  else s

/-- SRCLINE: session.rs:421-470 -/
def Session.rejected (s : Session) (flight : Flight) (error : ErrorCode) : Session :=
  let s := { (s.proofRejected flight error).invalidate with
    authority := none, requests := [], outcome := .rejected }
  if flight.command = .history then
    { s with
      historyState := .unavailable
      message := "Activity unavailable from this provider. Refresh to reconnect." }
  else if flight.v2 ∧ flight.command = .review ∧ error = .invalidRequest then
    { s with
      support := .unsupported
      unsupportedProvider := s.pin.map (·.providerIdentity)
      message := "Provider does not offer Touch ID approval. Refresh and review the request again to approve with a password." }
  else if flight.command.isDecision && error.definiteRejection then
    { s with
      unresolved := none
      message := "Decision rejected. Obtain a new review and fresh password before trying again."
      statusText := "Decision rejected. Obtain a new review and fresh password before trying again."
      statusProgress := .terminal }
  else if s.unresolved.isSome then
    { s with
      message := "Outcome uncertain. Refresh original request status; no decision was resent." }
  else
    { s with
      message := "Provider rejected the request. Refresh authority or obtain a new review." }

/-- SRCLINE: session.rs:497-516 -/
def Session.acceptSession (s : Session) (reply : SessionResponse) : Option Session :=
  if reply.version ≠ 1 then none
  else
    let authority := (reply.state, reply.generation)
    let s := if s.authority ≠ some authority then s.invalidate else s
    some { s with
      authority := some authority
      requests := if reply.state = .locked then [] else s.requests
      message := if reply.state = .locked then
          "Provider locked. Unlock separately; the agent must submit new work."
        else "Provider unlocked. Refresh the inbox and review a request." }

/-- SRCLINE: session.rs:517-529 -/
def Session.acceptHistory (s : Session) (reply : HistoryResponse) : Option Session :=
  if !reply.valid DEFAULT_HISTORY_LIMIT || s.authority.map Prod.fst ≠ some .unlocked then none
  else some { s with
    history := reply.events
    historyState := .available
    message := "Recent redacted provider activity. History does not authorize operations." }

/-- SRCLINE: session.rs:530-543 -/
def Session.acceptList (s : Session) (reply : ListResponse) : Option Session :=
  if !reply.valid then none
  else
    let s := if s.reviewed.any (fun r => !reply.requests.contains r.response.review.id) then
        s.invalidate
      else s
    some { s with requests := reply.requests }

/-- SRCLINE: session.rs:551-567 -/
def Session.acceptReview (s : Session) (flight : Flight) (reply : ReviewResponse)
    (signed : Option (Json × Option ApprovalBinding)) : Option Session :=
  if reply.version ≠ (if flight.v2 then 2 else 1) ∨ reply.review.valid = false ∨
      reply.review.id ≠ flight.id ∨ reply.ticket.any (!validHex ·) = true ∨
      (reply.ticket.isSome ∧ reply.review.status ≠ .pending) ∨
      s.authority ≠ some (.unlocked, reply.generation) then none
  else some { s with
    message := reply.review.status.summary
    biometric := .none
    proofId := none
    reviewed := some { response := reply, started := flight.started, signed } }

/-- SRCLINE: session.rs:574-582 -/
def Biometric.ofStatus : Status → Biometric
  | .approved | .running | .completed _ => approved
  | .pending => outcomeUnknown
  | _ => rejected

/-- SRCLINE: session.rs:587-591 -/
def StatusProgress.ofStatus : Status → StatusProgress
  | .pending => pending
  | .approved | .running => committed
  | _ => terminal

/-- The Touch ID result a status shows.
SRCLINE: session.rs:573-585 -/
def Session.proofAnswered (s : Session) (flight : Flight) (status : Status) : Session :=
  if s.proofId = some flight.id then
    { s with
      biometric := Biometric.ofStatus status
      proofId := if Biometric.ofStatus status ≠ .outcomeUnknown then none else s.proofId }
  else s

/-- SRCLINE: session.rs:568-603 -/
def Session.acceptStatus (s : Session) (flight : Flight) (reply : StatusResponse) : Option Session :=
  if reply.version ≠ (if flight.proof then 2 else 1) then none
  else
    let message :=
      if reply.status = .pending ∧ s.unresolved = some flight.id then
        "Outcome uncertain: still pending. Only status recovery is allowed; no decision was resent."
      else reply.status.summary
    some { s.proofAnswered flight reply.status with
      statusId := flight.id
      statusProgress := StatusProgress.ofStatus reply.status
      unresolved := if reply.status ≠ .pending ∧ s.unresolved = some flight.id then none
        else s.unresolved
      message
      statusText := message }

/-- SRCLINE: session.rs:494-606 -/
def Session.accept (P : Packages) (s : Session) (flight : Flight) (bytes : List UInt8) :
    Option Session :=
  match flight.command with
  | .session | .unlock => (decode P.sessionResponse bytes).bind s.acceptSession
  | .history => (decode P.historyResponse bytes).bind s.acceptHistory
  | .list => (decode P.listResponse bytes).bind s.acceptList
  | .review =>
    if flight.v2 then
      (decodeReview P bytes).bind fun reply =>
        s.acceptReview flight reply.1 (some (reply.2.1, reply.2.2))
    else (decode P.reviewResponse bytes).bind fun reply => s.acceptReview flight reply none
  | .approve | .deny | .status => (decode P.statusResponse bytes).bind (s.acceptStatus flight)

/-- A reply that is no error and is not accepted.
SRCLINE: session.rs:472-489 -/
def Session.unusable (s : Session) (flight : Flight) : Session :=
  let s := if flight.proof then { s with biometric := .outcomeUnknown } else s
  { s.invalidate with
    authority := none
    requests := []
    outcome := .invalid
    historyState := if flight.command = .history then .unavailable else .idle
    message := if s.unresolved.isSome then
        "Outcome uncertain: status unavailable. No decision was resent."
      else "Provider unavailable, untrusted, or invalid response. Refresh to reconnect." }

/-- The error of version 1 that a reply is, if it is one.
SRCLINE: session.rs:421-422 -/
def errorOf (P : Packages) (bytes : List UInt8) : Option ErrorCode :=
  ((decode P.errorResponse bytes).filter fun error => error.version = 1).map (·.error)

/-- SRCLINE: session.rs:409-493 -/
def Session.finish (P : Packages) (s : Session) (token : ℕ) (bytes : List UInt8) : Session :=
  match s.flight with
  | none => { s with outcome := .stale }
  | some flight =>
    if flight.token ≠ token then { s with outcome := .stale }
    else
      let s := { s with flight := none }
      if !flight.command.isDecision && flight.epoch ≠ s.epoch then
        { s with authority := none, requests := [], outcome := .stale }
      else
        match errorOf P bytes with
        | some error => s.rejected flight error
        | none =>
          match s.accept P flight bytes with
          | none => s.unusable flight
          | some s => { s with outcome := .accepted }

/-! ## Runs -/

/-- A call on the session, with what the clocks show while it runs. -/
inductive Call where
  | configure (uncertainId : String)
  | invalidate
  | pin (providerIdentity approvalClient : String)
  | snapshot (first second : Reading)
  | begin (command : Command) (id password : String) (first second : Reading)
  | prepareBiometric (reading : Reading)
  | beginBiometric (handle : ℕ) (keyId : String) (signature : List UInt8) (first second : Reading)
  | finish (token : ℕ) (bytes : List UInt8)

/-- What a call returns. -/
inductive Answer where
  | unit
  | configure (result : Except String Unit)
  | pin (result : Except Refusal Unit)
  | snapshot (snapshot : Snapshot)
  | work (result : Except String Work)
  | signing (result : Except Refusal SigningRequest)
  | proof (result : Except Refusal Work)

/-- One call. -/
def Session.step (P : Packages) (s : Session) : Call → Answer × Session
  | .configure uncertainId => Prod.map .configure id (s.configure uncertainId)
  | .invalidate => (.unit, s.invalidate)
  | .pin provider client => Prod.map .pin id (s.setPin provider client)
  | .snapshot first second => Prod.map .snapshot id (s.snapshot first second)
  | .begin command requestId password first second =>
    Prod.map .work id (s.begin command requestId password first second)
  | .prepareBiometric reading => Prod.map .signing id (s.prepareBiometric P reading)
  | .beginBiometric handle keyId signature first second =>
    Prod.map .proof id (s.beginBiometric P handle keyId signature first second)
  | .finish token bytes => (.unit, s.finish P token bytes)

/-- The work a call handed out. -/
def Answer.handed : Answer → Option Work
  | work (.ok w) => some w
  | proof (.ok w) => some w
  | _ => none

/-- The run of a list of calls. -/
def Session.run (P : Packages) (s : Session) (calls : List Call) : List (Library.Entry Session Call Answer) :=
  Library.trace (Session.step P) s calls

end VaultAccess.Model.Companion
