import VaultAccess.Model.Protocol

/-!
# The companion's view of the provider protocol

`companion/rust/src/provider/protocol.rs` and `approval_v2.rs`: the replies the
companion reads, their checks, and the transcripts it asks the Secure Enclave key
to sign. The decoders `serde` derives, the hash and the curve are other packages'
code: they are the fields of `Packages`, with the type of each reply.
-/

set_option autoImplicit false

namespace VaultAccess.Model.Companion

open VaultAccess.Library VaultAccess.Library.Text

def RESPONSE_LIMIT : ℕ := 1048576
def REQUEST_LIMIT : ℕ := 16384
def MAX_ARGUMENTS : ℕ := 32
def MAX_CREDENTIALS : ℕ := 16
def DEFAULT_HISTORY_LIMIT : ℕ := 50
def MAX_HISTORY_LIMIT : ℕ := 200

/-- SRCLINE: protocol.rs:15-20 -/
def validId (value : String) : Bool :=
  value.utf8ByteSize = 43 && value.toList.all fun c => isAsciiAlphanumeric c || c = '-' || c = '_'

/-- SRCLINE: protocol.rs:21-26 -/
def validHex (value : String) : Bool :=
  value.utf8ByteSize = 64 && value.toList.all isLowerHex

/-! ## Replies -/

/-- SRCLINE: protocol.rs:39-48 -/
inductive Failure where
  | reviewUnavailable
  | executionUnavailable
  | executionRejected
  | executionNonzero
  | executionSignaled
  | observationLost
  deriving DecidableEq, Repr

/-- SRCLINE: protocol.rs:28-38 -/
inductive Status where
  | pending
  | approved
  | denied
  | expired
  | running
  | completed (exitCode : UInt8)
  | failed (reason : Failure)
  deriving DecidableEq, Repr

def Failure.wire : Failure → String
  | reviewUnavailable => "review_unavailable"
  | executionUnavailable => "execution_unavailable"
  | executionRejected => "execution_rejected"
  | executionNonzero => "execution_nonzero"
  | executionSignaled => "execution_signaled"
  | observationLost => "observation_lost"

def Status.toJson : Status → Json
  | pending => .obj [("status", .str "pending")]
  | approved => .obj [("status", .str "approved")]
  | denied => .obj [("status", .str "denied")]
  | expired => .obj [("status", .str "expired")]
  | running => .obj [("status", .str "running")]
  | completed exitCode => .obj [("status", .str "completed"), ("exit_code", .int exitCode.toNat)]
  | failed reason => .obj [("status", .str "failed"), ("reason", .str reason.wire)]

/-- SRCLINE: protocol.rs:49-54 -/
def Status.summary (status : Status) : String := String.ofList status.toJson.render

/-- SRCLINE: protocol.rs:55-60 -/
structure Credential where
  label : String
  useType : String
  deriving DecidableEq, Repr

/-- SRCLINE: protocol.rs:61-77 -/
structure Review where
  id : String
  requester : String
  operation : String
  effect : String
  target : String
  arguments : List String
  credentials : List Credential
  executableDigest : String
  policyDigest : String
  argumentsDigest : String
  expiresAtUnixSeconds : ℕ
  oneTime : String
  status : Status
  deriving DecidableEq, Repr

/-- SRCLINE: protocol.rs:79-90 -/
def Review.valid (review : Review) : Bool :=
  validId review.id && decide (review.arguments.length ≤ MAX_ARGUMENTS) &&
    decide (review.credentials.length ≤ MAX_CREDENTIALS) &&
    [review.executableDigest, review.policyDigest, review.argumentsDigest].all validHex

/-- Four hexadecimal digits at least (`{:04x}`). -/
def hex4 (n : ℕ) : List Char :=
  let digits := Nat.toDigits 16 n
  List.replicate (4 - digits.length) '0' ++ digits

/-- One character, visible.
SRCLINE: protocol.rs:154-159 -/
def visibleChar (c : Char) : List Char :=
  if c = '"' then ['\\', '"']
  else if c = '\\' then ['\\', '\\']
  else if ' ' ≤ c && c ≤ '~' then [c]
  else ['\\', 'u', '\x7b'] ++ hex4 c.toNat ++ ['\x7d']

/-- SRCLINE: protocol.rs:149-163 -/
def visible (value : String) : String :=
  String.ofList ('"' :: value.toList.flatMap visibleChar ++ ['"'])

/-- The display projection of a review.
SRCLINE: protocol.rs:91-113 -/
structure ProviderReview where
  id : String
  requester : String
  operation : String
  effect : String
  target : String
  arguments : List String
  credentials : List Credential
  executableDigest : String
  policyDigest : String
  argumentsDigest : String
  expiresAtUnixSeconds : ℕ
  oneTime : String
  status : String
  deriving DecidableEq, Repr

def Review.projection (review : Review) : ProviderReview where
  id := visible review.id
  requester := visible review.requester
  operation := visible review.operation
  effect := visible review.effect
  target := visible review.target
  arguments := review.arguments.map visible
  credentials := review.credentials.map fun credential =>
    { label := visible credential.label, useType := visible credential.useType }
  executableDigest := review.executableDigest
  policyDigest := review.policyDigest
  argumentsDigest := review.argumentsDigest
  expiresAtUnixSeconds := review.expiresAtUnixSeconds
  oneTime := visible review.oneTime
  status := review.status.summary

/-- The rows of a review as one text.
SRCLINE: protocol.rs:114-145 -/
def Review.visible (review : Review) : String :=
  let visible := Companion.visible
  "\n".intercalate
    (["Request: " ++ visible review.id,
      "Requester: " ++ visible review.requester,
      "Operation: " ++ visible review.operation,
      "Effect: " ++ visible review.effect,
      "Target: " ++ visible review.target,
      "Arguments (" ++ toString review.arguments.length ++ " separate values):"] ++
    review.arguments.zipIdx.map (fun arg => "  [" ++ toString arg.2 ++ "] " ++ visible arg.1) ++
    ["Credentials (" ++ toString review.credentials.length ++ "):"] ++
    review.credentials.map (fun credential =>
      "  label=" ++ visible credential.label ++ " use_type=" ++ visible credential.useType) ++
    ["Executable SHA-256: " ++ review.executableDigest,
      "Policy SHA-256: " ++ review.policyDigest,
      "Arguments SHA-256: " ++ review.argumentsDigest,
      "Expires (Unix seconds): " ++ toString review.expiresAtUnixSeconds,
      "One-time scope: " ++ visible review.oneTime,
      "Status: " ++ review.status.summary])

/-- SRCLINE: protocol.rs:173-178 -/
inductive SessionState where
  | locked
  | unlocked
  deriving DecidableEq, Repr

/-- SRCLINE: protocol.rs:166-172 -/
structure SessionResponse where
  version : UInt8
  state : SessionState
  generation : ℕ
  deriving DecidableEq, Repr

/-- SRCLINE: protocol.rs:179-184 -/
structure ListResponse where
  version : UInt8
  requests : List String
  deriving DecidableEq, Repr

/-- SRCLINE: protocol.rs:185-192 -/
def ListResponse.valid (reply : ListResponse) : Bool :=
  reply.version = 1 && decide (reply.requests.length ≤ 256) && reply.requests.all validId &&
    reply.requests.dedup.length = reply.requests.length

/-- SRCLINE: protocol.rs:193-202 -/
structure ReviewResponse where
  version : UInt8
  review : Review
  ticket : Option String
  generation : ℕ
  deriving DecidableEq, Repr

/-- SRCLINE: protocol.rs:203-208 -/
structure StatusResponse where
  version : UInt8
  status : Status
  deriving DecidableEq, Repr

/-- SRCLINE: protocol.rs:215-224 -/
inductive ErrorCode where
  | invalidRequest
  | unauthorized
  | unavailable
  | stale
  | authenticationFailed
  | rateLimited
  deriving DecidableEq, Repr

/-- SRCLINE: protocol.rs:209-214 -/
structure ErrorResponse where
  version : UInt8
  error : ErrorCode
  deriving DecidableEq, Repr

/-- SRCLINE: protocol.rs:225-235 -/
def ErrorCode.definiteRejection : ErrorCode → Bool
  | invalidRequest | unauthorized | authenticationFailed | rateLimited => true
  | unavailable | stale => false

/-- SRCLINE: api/provider.rs:79-98 -/
inductive HistoryOutcome where
  | submitted
  | approved
  | denied
  | expired
  | reviewUnavailable
  | executionStarted
  | succeeded
  | executionNonzero
  | executionSignaled
  | executionRejected
  | executionUnavailable
  | invalidated
  | recovered
  | legacyUnknown
  | reconciled
  | observationLost
  deriving DecidableEq, Repr

/-- SRCLINE: protocol.rs:255-264 -/
structure HistoryEvent where
  requestId : String
  operation : String
  atUnixSeconds : Option ℕ
  ordinal : UInt32
  outcome : HistoryOutcome
  deriving DecidableEq, Repr

/-- SRCLINE: protocol.rs:248-254 -/
structure HistoryResponse where
  version : UInt8
  historyVersion : UInt8
  events : List HistoryEvent
  deriving DecidableEq, Repr

/-- SRCLINE: protocol.rs:294-308 -/
def HistoryEvent.valid (event : HistoryEvent) : Bool :=
  validId event.requestId && validOperationId event.operation &&
    (event.atUnixSeconds.isSome || event.outcome = .legacyUnknown)

/-- The order of two optional times, the absent one first. -/
def timeBelow : Option ℕ → Option ℕ → Bool
  | none, some _ => true
  | some a, some b => a < b
  | _, none => false

/-- `a.key() > b.key()`: the time, then the request, then the ordinal.
SRCLINE: protocol.rs:291-293 -/
def HistoryEvent.after (a b : HistoryEvent) : Bool :=
  timeBelow b.atUnixSeconds a.atUnixSeconds ||
    (b.atUnixSeconds = a.atUnixSeconds &&
      (b.requestId < a.requestId || (b.requestId = a.requestId && b.ordinal < a.ordinal)))

/-- SRCLINE: protocol.rs:319-338 -/
def HistoryResponse.valid (reply : HistoryResponse) (requested : ℕ) : Bool :=
  reply.version = 1 && reply.historyVersion = 1 &&
    (decide (1 ≤ requested) && decide (requested ≤ MAX_HISTORY_LIMIT)) &&
    decide (reply.events.length ≤ requested) && reply.events.all HistoryEvent.valid &&
    (reply.events.zip reply.events.tail).all (fun pair => pair.1.after pair.2) &&
    (reply.events.map fun e => (e.requestId, e.ordinal)).dedup.length = reply.events.length

/-! ## Touch ID approval, version 2 -/

def APPROVAL_DOMAIN : String := "dev.vaultwarden.provider.approval.v2"
def ENROLL_DOMAIN : String := "dev.vaultwarden.provider.approval-enroll.v2"
def APPROVE_ACTION : String := "approve"
def PUBLIC_KEY_LEN : ℕ := 65
def MIN_SIGNATURE_LEN : ℕ := 8
def MAX_SIGNATURE_LEN : ℕ := 72

/-- SRCLINE: approval_v2.rs:24-44 -/
structure ApprovalBinding where
  version : UInt8
  domain : String
  action : String
  providerIdentity : String
  approvalClient : String
  keyId : Option String
  biometricAllowed : Bool
  requestId : String
  recordDigest : String
  policyDigest : String
  argumentsDigest : String
  expiresAtUnixSeconds : ℕ
  generation : ℕ
  ticket : String
  ticketDeadlineUnixMs : ℕ
  reviewDigest : String
  deriving DecidableEq, Repr

/-- SRCLINE: approval_v2.rs:46-58 -/
structure ReviewResponseV2 where
  version : UInt8
  review : Review
  ticket : Option String
  generation : ℕ
  approvalBinding : Option ApprovalBinding
  deriving DecidableEq, Repr

/-- The packages the companion calls: `sha2`, `p256`, and the `serde_json::from_slice`
that `serde` derives for each reply. `rawReview` is the `review` member as it was
received. -/
structure Packages where
  sha256 : List UInt8 → Vector UInt8 32
  fromDer : List UInt8 → Bool
  fromSec1Bytes : List UInt8 → Bool
  errorResponse : List UInt8 → Option ErrorResponse
  sessionResponse : List UInt8 → Option SessionResponse
  listResponse : List UInt8 → Option ListResponse
  historyResponse : List UInt8 → Option HistoryResponse
  reviewResponse : List UInt8 → Option ReviewResponse
  reviewResponseV2 : List UInt8 → Option ReviewResponseV2
  rawReview : List UInt8 → Option Json
  statusResponse : List UInt8 → Option StatusResponse

/-- SRCLINE: protocol.rs:237-242 -/
def decode {α : Type} (fromSlice : List UInt8 → Option α) (bytes : List UInt8) : Option α :=
  if RESPONSE_LIMIT < bytes.length then none else fromSlice bytes

/-- SRCLINE: approval_v2.rs:63-80 -/
def decodeReview (P : Packages) (bytes : List UInt8) :
    Option (ReviewResponse × Json × Option ApprovalBinding) := do
  let typed ← decode P.reviewResponseV2 bytes
  let raw ← decode P.rawReview bytes
  pure ({ version := typed.version, review := typed.review, ticket := typed.ticket,
          generation := typed.generation }, raw, typed.approvalBinding)

/-- SRCLINE: approval_v2.rs:85-90 -/
structure Pin where
  providerIdentity : String
  approvalClient : String
  deriving DecidableEq, Repr

/-- SRCLINE: approval_v2.rs:92-97 -/
def Pin.new (providerIdentity approvalClient : String) : Option Pin :=
  if validHex providerIdentity && validHex approvalClient then
    some { providerIdentity, approvalClient }
  else none

/-- SRCLINE: approval_v2.rs:101-108 -/
structure ReceivedReview where
  rawReview : Json
  review : Review
  ticket : Option String
  generation : ℕ
  binding : Option ApprovalBinding

/-- SRCLINE: approval_v2.rs:111-115 -/
structure SigningTranscript where
  keyId : String
  transcript : List UInt8
  deriving DecidableEq, Repr

/-- SRCLINE: api/biometric.rs:17-46 -/
inductive Refusal where
  | notConfigured
  | notPinned
  | busy
  | outcomeUncertain
  | noDecidableReview
  | bindingUnavailable
  | malformedBinding
  | malformedReview
  | providerMismatch
  | approvalClientMismatch
  | requestMismatch
  | generationMismatch
  | ticketMismatch
  | reviewMismatch
  | reviewDigestMismatch
  | biometricNotAllowed
  | noEnrolledKey
  | keyMismatch
  | staleHandle
  | invalidSignature
  | invalidPublicKey
  | invalidPassword
  | noPreparedOperation
  | requestTooLarge
  deriving DecidableEq, Repr

/-- The 32 bytes of 64 hexadecimal digits.
SRCLINE: approval_v2.rs:121-137 -/
def hex32 (value : String) : Option (List UInt8) :=
  if validHex value then some (hexPairs (bytes value)) else none

/-- SRCLINE: approval_v2.rs:186-190 -/
def validPublicKey (P : Packages) (publicKey : List UInt8) : Bool :=
  publicKey.length = PUBLIC_KEY_LEN && publicKey.head? = some 0x04 && P.fromSec1Bytes publicKey

/-- SRCLINE: approval_v2.rs:192-195 -/
def validSignature (P : Packages) (signature : List UInt8) : Bool :=
  (decide (MIN_SIGNATURE_LEN ≤ signature.length) && decide (signature.length ≤ MAX_SIGNATURE_LEN)) &&
    P.fromDer signature

mutual

/-- The canonical text: members sorted by name, no white space. The numbers of a
review that was accepted are integers, so that the failing branch for a float is not
reached.
SRCLINE: approval_v2.rs:220-259 -/
def canonical : Json → List Char
  | .null => ['n', 'u', 'l', 'l']
  | .bool true => ['t', 'r', 'u', 'e']
  | .bool false => ['f', 'a', 'l', 's', 'e']
  | .int n => Json.decimal n
  | .str s => Json.quote s
  | .arr items => '[' :: [','].intercalate (canonicalItems items) ++ [']']
  | .obj members =>
    '\x7b' :: [','].intercalate ((sortByKey Prod.fst (canonicalMembers members)).map fun member =>
      Json.quote member.1 ++ ':' :: member.2) ++ ['\x7d']

/-- The canonical texts of the items. -/
def canonicalItems : List Json → List (List Char)
  | [] => []
  | item :: rest => canonical item :: canonicalItems rest

/-- The canonical texts of the values, each with its name. -/
def canonicalMembers : List (String × Json) → List (String × List Char)
  | [] => []
  | (name, value) :: rest => (name, canonical value) :: canonicalMembers rest

end

/-- SRCLINE: approval_v2.rs:210-214 -/
def reviewDigest (P : Packages) (value : Json) : List UInt8 :=
  (P.sha256 (utf8 (canonical value))).toList

/-- SRCLINE: approval_v2.rs:261-264 -/
def frame (field : List UInt8) : List UInt8 := toBeBytes field.length ++ field

/-- `u64::to_be_bytes`. -/
def toBeBytes64 (n : ℕ) : List UInt8 := toBeBytes (n / 4294967296) ++ toBeBytes n

/-- The fields of a binding that must be hexadecimal, as bytes. -/
structure BindingBytes where
  provider : List UInt8
  client : List UInt8
  record : List UInt8
  policy : List UInt8
  arguments : List UInt8
  ticket : List UInt8
  review : List UInt8

/-- The form of a binding.
SRCLINE: approval_v2.rs:278-296 -/
def ApprovalBinding.parts (binding : ApprovalBinding) : Option BindingBytes := do
  guard (binding.version = 2 ∧ binding.domain = APPROVAL_DOMAIN ∧ binding.action = APPROVE_ACTION ∧
    validId binding.requestId = true)
  let provider ← hex32 binding.providerIdentity
  let client ← hex32 binding.approvalClient
  let record ← hex32 binding.recordDigest
  let policy ← hex32 binding.policyDigest
  let arguments ← hex32 binding.argumentsDigest
  let ticket ← hex32 binding.ticket
  let review ← hex32 binding.reviewDigest
  guard (∀ keyId ∈ binding.keyId, validHex keyId = true)
  pure { provider, client, record, policy, arguments, ticket, review }

/-- The first disagreement between a binding, the pin and the review.
SRCLINE: approval_v2.rs:297-324 -/
def ApprovalBinding.disagreement (P : Packages) (binding : ApprovalBinding) (parts : BindingBytes)
    (received : ReceivedReview) (pin : Pin) : Option Refusal :=
  if binding.providerIdentity ≠ pin.providerIdentity then some .providerMismatch
  else if binding.approvalClient ≠ pin.approvalClient then some .approvalClientMismatch
  else if binding.requestId ≠ received.review.id then some .requestMismatch
  else if binding.generation ≠ received.generation then some .generationMismatch
  else if received.ticket ≠ some binding.ticket then some .ticketMismatch
  else if binding.expiresAtUnixSeconds ≠ received.review.expiresAtUnixSeconds ∨
      binding.policyDigest ≠ received.review.policyDigest ∨
      binding.argumentsDigest ≠ received.review.argumentsDigest then some .reviewMismatch
  else if Companion.reviewDigest P received.rawReview ≠ parts.review then some .reviewDigestMismatch
  else if !binding.biometricAllowed then some .biometricNotAllowed
  else none

/-- The fourteen fields of the approval transcript.
SRCLINE: approval_v2.rs:331-350 -/
def ApprovalBinding.fields (binding : ApprovalBinding) (parts : BindingBytes) (key : List UInt8) :
    List (List UInt8) :=
  [bytes APPROVAL_DOMAIN, bytes APPROVE_ACTION, parts.provider, parts.client, key,
    bytes binding.requestId, parts.record, parts.policy, parts.arguments,
    toBeBytes64 binding.expiresAtUnixSeconds, toBeBytes64 binding.generation, parts.ticket,
    toBeBytes64 binding.ticketDeadlineUnixMs, parts.review]

/-- SRCLINE: approval_v2.rs:269-355 -/
def approvalTranscript (P : Packages) (received : ReceivedReview) (pin : Option Pin) :
    Except Refusal SigningTranscript :=
  match received.binding with
  | none => .error .bindingUnavailable
  | some binding =>
    match pin with
    | none => .error .notPinned
    | some pin =>
      match binding.parts with
      | none => .error .malformedBinding
      | some parts =>
        match binding.disagreement P parts received pin with
        | some refusal => .error refusal
        | none =>
          match binding.keyId with
          | none => .error .noEnrolledKey
          | some keyId =>
            match hex32 keyId with
            | none => .error .malformedBinding
            | some key => .ok { keyId, transcript := (binding.fields parts key).flatMap frame }

/-- SRCLINE: approval_v2.rs:358-385 -/
def enrollTranscript (P : Packages) (providerIdentity approvalClient : String)
    (publicKey : List UInt8) (ticket actionId : String) : Option (List UInt8) := do
  let provider ← hex32 providerIdentity
  let client ← hex32 approvalClient
  let ticket ← hex32 ticket
  if !validPublicKey P publicKey || !validId actionId then none
  else
    pure ([bytes ENROLL_DOMAIN, provider, client, publicKey, ticket, bytes actionId].flatMap frame)

end VaultAccess.Model.Companion
