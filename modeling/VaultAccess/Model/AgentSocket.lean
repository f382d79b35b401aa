import VaultAccess.Library.JsonText
import VaultAccess.Library.Outcomes
import VaultAccess.Model.Application
import VaultAccess.Model.PolicyDocuments

/-!
# The socket of agents

`src/adapters/unix_socket.rs` and the documents of `src/access/protocol.rs`: frames of one line,
the messages and the answers in them, the server's side of one connection and the client's.
-/

set_option autoImplicit false

namespace VaultAccess.Model

open VaultAccess.Library
open Application (AgentStatus)

/-! ## Documents -/

/-- SRCLINE: protocol.rs:15-27 -/
def SignedSubmission.toJson (m : SignedSubmission) : Json :=
  .obj [("protocol_version", Json.nat m.protocolVersion.toNat), ("purpose", .str m.purpose),
    ("binding_id", .str m.bindingId), ("nonce", .str m.nonce), ("operation_id", .str m.operationId),
    ("expected_policy_revision", .str m.expectedPolicyRevision), ("args", Json.texts m.args),
    ("signature", .str m.signature)]

/-- SRCLINE: protocol.rs:15-27 -/
def SignedSubmission.ofJson (document : Json) : Option SignedSubmission := do
  let members ← document.closed ["protocol_version", "purpose", "binding_id", "nonce", "operation_id",
    "expected_policy_revision", "args", "signature"]
  let protocolVersion ← Json.required "protocol_version" members (Json.readNat 256)
  let purpose ← Json.required "purpose" members Json.readString
  let bindingId ← Json.required "binding_id" members Json.readString
  let nonce ← Json.required "nonce" members Json.readString
  let operationId ← Json.required "operation_id" members Json.readString
  let expectedPolicyRevision ← Json.required "expected_policy_revision" members Json.readString
  let args ← Json.required "args" members readTexts
  let signature ← Json.required "signature" members Json.readString
  pure ⟨UInt8.ofNat protocolVersion, purpose, bindingId, nonce, operationId, expectedPolicyRevision,
    args, signature⟩

/-- SRCLINE: protocol.rs:135-144 -/
def SignedStatusQuery.toJson (m : SignedStatusQuery) : Json :=
  .obj [("protocol_version", Json.nat m.protocolVersion.toNat), ("purpose", .str m.purpose),
    ("binding_id", .str m.bindingId), ("nonce", .str m.nonce), ("request_id", .str m.requestId),
    ("signature", .str m.signature)]

/-- SRCLINE: protocol.rs:135-144 -/
def SignedStatusQuery.ofJson (document : Json) : Option SignedStatusQuery := do
  let members ← document.closed ["protocol_version", "purpose", "binding_id", "nonce", "request_id",
    "signature"]
  let protocolVersion ← Json.required "protocol_version" members (Json.readNat 256)
  let purpose ← Json.required "purpose" members Json.readString
  let bindingId ← Json.required "binding_id" members Json.readString
  let nonce ← Json.required "nonce" members Json.readString
  let requestId ← Json.required "request_id" members Json.readString
  let signature ← Json.required "signature" members Json.readString
  pure ⟨UInt8.ofNat protocolVersion, purpose, bindingId, nonce, requestId, signature⟩

/-- The document a client writes. -/
def AgentEnvelope.toJson : AgentEnvelope → Json
  | submission input => input.toJson
  | status input => input.toJson

/-- The first of the two messages the document is one of.
SRCLINE: protocol.rs:213-219 -/
def AgentEnvelope.ofJson (document : Json) : Option AgentEnvelope :=
  ((SignedSubmission.ofJson document).map submission).or
    ((SignedStatusQuery.ofJson document).map status)

/-- SRCLINE: protocol.rs:235-245 -/
def readAgentFailure : Json → Option DirectFailure :=
  readUnit [("review_unavailable", .reviewUnavailable), ("execution_unavailable", .executionUnavailable),
    ("execution_rejected", .executionRejected), ("execution_nonzero", .executionNonzero),
    ("execution_signaled", .executionSignaled), ("observation_lost", .observationLost)]

/-- The tag `status` of an object, and the object without it. -/
def readTagged : Json → Option (String × Json)
  | .obj members =>
    if (members.filter fun member => member.1 = "status").length ≠ 1 then none
    else match Json.member "status" members with
      | some (.str tag) => some (tag, .obj (members.filter fun member => member.1 ≠ "status"))
      | _ => none
  | _ => none

/-- SRCLINE: protocol.rs:246-256 -/
def Application.AgentStatus.toJson : AgentStatus → Json
  | pending => .obj [("status", .str "pending")]
  | approved => .obj [("status", .str "approved")]
  | running => .obj [("status", .str "running")]
  | denied => .obj [("status", .str "denied")]
  | expired => .obj [("status", .str "expired")]
  | completed exitCode => .obj [("status", .str "completed"), ("exit_code", .int exitCode)]
  | failed category => .obj [("status", .str "failed"), ("category", category.toJson)]

/-- `StrictAgentStatus`: no other members, and an exit code of eight bits.
SRCLINE: protocol.rs:257-283 -/
def Application.AgentStatus.ofJson (document : Json) : Option AgentStatus := do
  let (tag, content) ← readTagged document
  match tag with
  | "pending" => (content.closed []).map fun _ => pending
  | "approved" => (content.closed []).map fun _ => approved
  | "running" => (content.closed []).map fun _ => running
  | "denied" => (content.closed []).map fun _ => denied
  | "expired" => (content.closed []).map fun _ => expired
  | "completed" => do
    let members ← content.closed ["exit_code"]
    let exitCode ← Json.required "exit_code" members (Json.readNat 256)
    pure (completed exitCode)
  | "failed" => do
    let members ← content.closed ["category"]
    let category ← Json.required "category" members readAgentFailure
    pure (failed category)
  | _ => none

/-- The rejections and their names.
SRCLINE: protocol.rs:316-337 -/
def AgentRejection.names : List (String × AgentRejection) :=
  [("unauthorized", unauthorized), ("malformed", malformed), ("unsupported_version", unsupportedVersion),
    ("replay", replay), ("stale_revision", staleRevision), ("invalid_arguments", invalidArguments),
    ("locked", locked), ("busy", busy), ("unavailable", unavailable)]

def AgentRejection.toJson : AgentRejection → Json
  | unauthorized => .str "unauthorized"
  | malformed => .str "malformed"
  | unsupportedVersion => .str "unsupported_version"
  | replay => .str "replay"
  | staleRevision => .str "stale_revision"
  | invalidArguments => .str "invalid_arguments"
  | locked => .str "locked"
  | busy => .str "busy"
  | unavailable => .str "unavailable"

/-- SRCLINE: protocol.rs:340-357 -/
inductive AgentResponse where
  | pending (protocolVersion : UInt8) (requestId : String)
  | status (protocolVersion : UInt8) (requestId : String) (state : AgentStatus)
  | rejected (protocolVersion : UInt8) (category : AgentRejection)
  deriving DecidableEq, Repr

/-- SRCLINE: protocol.rs:340-357 -/
def AgentResponse.toJson : AgentResponse → Json
  | pending protocolVersion requestId =>
    .obj [("status", .str "pending"), ("protocol_version", Json.nat protocolVersion.toNat),
      ("request_id", .str requestId)]
  | status protocolVersion requestId state =>
    .obj [("status", .str "status"), ("protocol_version", Json.nat protocolVersion.toNat),
      ("request_id", .str requestId), ("state", state.toJson)]
  | rejected protocolVersion category =>
    .obj [("status", .str "rejected"), ("protocol_version", Json.nat protocolVersion.toNat),
      ("category", category.toJson)]

/-- SRCLINE: protocol.rs:340-357 -/
def AgentResponse.ofJson (document : Json) : Option AgentResponse := do
  let (tag, content) ← readTagged document
  match tag with
  | "pending" => do
    let members ← content.closed ["protocol_version", "request_id"]
    let protocolVersion ← Json.required "protocol_version" members (Json.readNat 256)
    let requestId ← Json.required "request_id" members Json.readString
    pure (pending (UInt8.ofNat protocolVersion) requestId)
  | "status" => do
    let members ← content.closed ["protocol_version", "request_id", "state"]
    let protocolVersion ← Json.required "protocol_version" members (Json.readNat 256)
    let requestId ← Json.required "request_id" members Json.readString
    let state ← Json.required "state" members AgentStatus.ofJson
    pure (status (UInt8.ofNat protocolVersion) requestId state)
  | "rejected" => do
    let members ← content.closed ["protocol_version", "category"]
    let protocolVersion ← Json.required "protocol_version" members (Json.readNat 256)
    let category ← Json.required "category" members (readUnit AgentRejection.names)
    pure (rejected (UInt8.ofNat protocolVersion) category)
  | _ => none

/-- SRCLINE: protocol.rs:360-365 -/
def AgentResponse.ofPending (requestId : String) : AgentResponse :=
  pending (UInt8.ofNat PROTOCOL_VERSION) requestId

/-- SRCLINE: protocol.rs:367-372 -/
def AgentResponse.ofRejection (category : AgentRejection) : AgentResponse :=
  rejected (UInt8.ofNat PROTOCOL_VERSION) category

namespace AgentSocket

def MAX_REQUEST_FRAME_BYTES : ℕ := 64 * 1024
def MAX_RESPONSE_FRAME_BYTES : ℕ := 1024

section Parse

variable (J : Json.Reader)

/-- SRCLINE: protocol.rs:221-231 -/
def parseEnvelope (data : List UInt8) : Except AgentRejection AgentEnvelope :=
  if MAX_REQUEST_FRAME_BYTES < data.length then .error .malformed
  else match (J.read data).bind AgentEnvelope.ofJson with
    | none => .error .malformed
    | some envelope => do
      envelope.validate
      pure envelope

/-- The checks of an answer.
SRCLINE: protocol.rs:380-403 -/
def validResponse : AgentResponse → Bool
  | .pending protocolVersion requestId | .status protocolVersion requestId _ =>
    protocolVersion.toNat = PROTOCOL_VERSION && validRequestId requestId
  | .rejected protocolVersion _ => protocolVersion.toNat = PROTOCOL_VERSION

/-- SRCLINE: protocol.rs:374-405 -/
def parseResponse (data : List UInt8) : Except AgentRejection AgentResponse :=
  if MAX_RESPONSE_FRAME_BYTES < data.length then .error .malformed
  else match (J.read data).bind AgentResponse.ofJson with
    | none => .error .malformed
    | some response => if validResponse response then .ok response else .error .malformed

end Parse

/-! ## Frames -/

/-- Nothing is told about a failure of the transport. -/
structure AgentTransportError where
  deriving DecidableEq, Repr

/-- One read of a stream: the clock before it and after it, and what it gave. Nothing is the end
of the stream; `none` is an error. -/
structure StreamRead where
  asked : ℕ
  came : ℕ
  chunk : Option (List UInt8)

/-- What the end of the stream leaves.
SRCLINE: unix_socket.rs:529-533 -/
def endOfFrame (data : List UInt8) (sawLf : Bool) : Except AgentTransportError (List UInt8) :=
  if !sawLf || data.getLast? ≠ some 0x0a || data.dropLast.isEmpty ||
      data.dropLast.getLast? = some 0x0d then
    .error ⟨⟩
  else .ok data.dropLast

/-- The loop over the reads. A stream that stays silent is timed out.
SRCLINE: unix_socket.rs:494-528 -/
def readLoop (limit deadline : ℕ) :
    List UInt8 → Bool → List StreamRead → Except AgentTransportError (List UInt8)
  | _, _, [] => .error ⟨⟩
  | data, sawLf, read :: rest =>
    if deadline ≤ read.asked then .error ⟨⟩
    else match read.chunk with
      | none => .error ⟨⟩
      | some chunk =>
        if deadline ≤ read.came then .error ⟨⟩
        else if chunk.isEmpty then endOfFrame data sawLf
        else if sawLf || limit < data.length + chunk.length then .error ⟨⟩
        else match chunk.findIdx? (· = 0x0a) with
          | some index =>
            if index + 1 ≠ chunk.length then .error ⟨⟩
            else readLoop limit deadline (data ++ chunk) true rest
          | none => readLoop limit deadline (data ++ chunk) sawLf rest

/-- SRCLINE: unix_socket.rs:489-537 -/
def readFrame (limit deadline : ℕ) (reads : List StreamRead) : Except AgentTransportError (List UInt8) :=
  readLoop limit deadline [] false reads

/-- A document and a line feed, unless that is too long.
SRCLINE: unix_socket.rs:542-546, 630-634 -/
def lineFrame (limit : ℕ) (document : Json) : Except AgentTransportError (List UInt8) :=
  let data := document.toVec ++ [0x0a]
  if limit < data.length then .error ⟨⟩ else .ok data

/-- What `write_response` writes.
SRCLINE: unix_socket.rs:538-559 -/
def responseFrame (response : AgentResponse) : Except AgentTransportError (List UInt8) :=
  lineFrame MAX_RESPONSE_FRAME_BYTES response.toJson

/-- What a client writes.
SRCLINE: unix_socket.rs:629-634 -/
def requestFrame (input : AgentEnvelope) : Except AgentTransportError (List UInt8) :=
  lineFrame MAX_REQUEST_FRAME_BYTES input.toJson

/-! ## The client -/

section Exchange

variable (J : Json.Reader)

/-- `connected` is the answer of the checks of the socket and its owner, and of writing the frame.
SRCLINE: unix_socket.rs:625-677 -/
def exchangeEnvelope (input : AgentEnvelope) (connected : Except AgentTransportError Unit)
    (deadline : ℕ) (reads : List StreamRead) : Except AgentTransportError AgentResponse := do
  let _ ← requestFrame input
  connected
  let response ← readFrame MAX_RESPONSE_FRAME_BYTES deadline reads
  (parseResponse J response).mapError fun _ => ⟨⟩

/-- SRCLINE: unix_socket.rs:600-610 -/
def exchange (input : SignedSubmission) (connected : Except AgentTransportError Unit)
    (deadline : ℕ) (reads : List StreamRead) : Except AgentTransportError AgentResponse := do
  let response ← exchangeEnvelope J (.submission input) connected deadline reads
  match response with
  | .pending .. | .rejected .. => .ok response
  | .status .. => .error ⟨⟩

/-- SRCLINE: unix_socket.rs:612-623 -/
def queryExchange (input : SignedStatusQuery) (connected : Except AgentTransportError Unit)
    (deadline : ℕ) (reads : List StreamRead) : Except AgentTransportError AgentResponse := do
  let response ← exchangeEnvelope J (.status input) connected deadline reads
  match response with
  | .status _ requestId _ => if requestId = input.requestId then .ok response else .error ⟨⟩
  | .rejected .. => .ok response
  | .pending .. => .error ⟨⟩

end Exchange

/-! ## The server -/

section Serve

open Application

variable (J : Json.Reader) (E : Externals) (ownerUid : UInt32) (requestLifetime : ℕ)

/-- Whether one of the agents has a token that is not denied. -/
def anyTokenLive : List String → App AgentRejection Bool
  | [] => pure false
  | id :: rest => do
    match ← act (.lookupToken id) with
    | none => anyTokenLive rest
    | some cell => if ← act (.loadFlag cell) then anyTokenLive rest else pure true

/-- SRCLINE: provider.rs:214-232 -/
def eligibleAgentIds (uid : UInt32) (groups : List UInt32) : App AgentRejection (List String) := do
  if uid = ownerUid then throw .unauthorized
  let s ← ofExcept (fun _ => .unavailable) (← act .readState)
  pure ((s.pairings.filter fun binding => binding.matchesOs uid groups).map (·.id))

/-- SRCLINE: application.rs:632-664 -/
def agentPeerEligible (uid : UInt32) (groups : List UInt32) : App AgentRejection Unit :=
  closingIfUnavailable do
    if ← act .loadClosing then throw .unavailable
    withTryLock .gate .busy .unavailable do
      let ids ← eligibleAgentIds ownerUid uid groups
      withLock .agentTokens .unavailable do
        if !(← anyTokenLive ids) then throw .unauthorized

/-- The call a message asks for.
SRCLINE: unix_socket.rs:444-455 -/
def answer (uid : UInt32) (groups : List UInt32) (rounds : ℕ) :
    AgentEnvelope → App AgentRejection AgentResponse
  | .submission input => do
    let id ← submitSigned E ownerUid requestLifetime uid groups input
    pure (.ofPending id)
  | .status input => do
    let state ← signedAgentStatus E ownerUid uid groups input rounds
    pure (.status (UInt8.ofNat PROTOCOL_VERSION) input.requestId state)

/-- A task of its own; `none` if it panicked. -/
def joined {α : Type} (panic : Option ℕ) (p : Prog Act Ans α) : Prog Act Ans (Option α) :=
  match panic with
  | none => p >>= fun value => pure (some value)
  | some n => p.upTo n

/-- What one connection brings: the peer, the reads of its stream, after how many actions either
task panics, and how often a status is read again. -/
structure Connection where
  uid : UInt32
  groups : List UInt32
  deadline : ℕ
  reads : List StreamRead
  eligibilityPanic : Option ℕ
  panic : Option ℕ
  rounds : ℕ

/-- The response of one connection.
SRCLINE: unix_socket.rs:422-471 -/
def serveOne (connection : Connection) : Prog Act Ans AgentResponse := do
  let eligibility ← joined connection.eligibilityPanic
    (agentPeerEligible ownerUid connection.uid connection.groups).run
  match eligibility with
  | none => pure (.ofRejection .unavailable)
  | some (.error category) => pure (.ofRejection category)
  | some (.ok ()) => match readFrame MAX_REQUEST_FRAME_BYTES connection.deadline connection.reads with
    | .error _ => pure (.ofRejection .malformed)
    | .ok data => match parseEnvelope J data with
      | .error category => pure (.ofRejection category)
      | .ok input => do
        let result ← joined connection.panic
          (answer E ownerUid requestLifetime connection.uid connection.groups connection.rounds input).run
        match result with
        | none => pure (.ofRejection .unavailable)
        | some (.error category) => pure (.ofRejection category)
        | some (.ok response) => pure response

end Serve

end AgentSocket

end VaultAccess.Model
