import VaultAccess.Model.Records

/-!
# Signed agent messages

`src/access/protocol.rs`: the two messages an agent signs, their checks, the bytes
that are signed and the replay marker, which depends on the binding and the
nonce only.
-/

set_option autoImplicit false

namespace VaultAccess.Model

open VaultAccess.Library VaultAccess.Library.Text

def SIGNING_DOMAIN : List UInt8 := bytes "vaultwarden-access\x00"
def REPLAY_DOMAIN : List UInt8 := bytes "vaultwarden-access-replay\x00"
def ENCODING_VERSION : UInt8 := 1

/-- SRCLINE: protocol.rs:18-27 -/
structure SignedSubmission where
  protocolVersion : UInt8
  purpose : String
  bindingId : String
  nonce : String
  operationId : String
  expectedPolicyRevision : String
  args : List String
  signature : String
  deriving DecidableEq, Repr

/-- SRCLINE: protocol.rs:137-144 -/
structure SignedStatusQuery where
  protocolVersion : UInt8
  purpose : String
  bindingId : String
  nonce : String
  requestId : String
  signature : String
  deriving DecidableEq, Repr

/-- Canonical unpadded text of exactly `n` bytes.
SRCLINE: protocol.rs:306-314 -/
def decodeFixed (n : ℕ) (value : String) : Except AgentRejection (Vector UInt8 n) :=
  match decodeUrlSafe value with
  | none => .error .malformed
  | some data =>
    if encodeUrlSafe data ≠ value then .error .malformed
    else if h : data.toArray.size = n then .ok ⟨data.toArray, h⟩
    else .error .malformed

/-- `u32::to_be_bytes`. -/
def toBeBytes (n : ℕ) : List UInt8 :=
  [UInt8.ofNat (n / 16777216), UInt8.ofNat (n / 65536), UInt8.ofNat (n / 256), UInt8.ofNat n]

/-- SRCLINE: protocol.rs:301-304 -/
def appendField (data value : List UInt8) : List UInt8 := data ++ toBeBytes value.length ++ value

/-- SRCLINE: protocol.rs:293-299 -/
def hexNibble (byte : UInt8) : UInt8 := if 0x30 ≤ byte && byte ≤ 0x39 then byte - 0x30 else byte - 0x61 + 10

/-- The bytes two hexadecimal digits stand for. -/
def hexPairs : List UInt8 → List UInt8
  | high :: low :: rest => (hexNibble high <<< 4 ||| hexNibble low) :: hexPairs rest
  | _ => []

/-- The three fixed-length fields of a message. -/
def validEnvelope (bindingId nonce signature : String) : Except AgentRejection Unit := do
  let _ ← decodeFixed 32 bindingId
  let _ ← decodeFixed 32 nonce
  let _ ← decodeFixed 64 signature

/-- SRCLINE: protocol.rs:65-84 -/
def SignedSubmission.validate (m : SignedSubmission) : Except AgentRejection Unit :=
  if m.protocolVersion.toNat ≠ PROTOCOL_VERSION then .error .unsupportedVersion
  else if m.purpose ≠ "submit" || !validOperationId m.operationId ||
      !validSha256 m.expectedPolicyRevision || decide (MAX_ARGS < m.args.length) ||
      m.args.any (fun arg => decide (MAX_ARG_LEN < arg.utf8ByteSize) || arg.toList.contains '\x00')
    then .error .malformed
  else validEnvelope m.bindingId m.nonce m.signature

/-- SRCLINE: protocol.rs:171-183 -/
def SignedStatusQuery.validate (m : SignedStatusQuery) : Except AgentRejection Unit :=
  if m.protocolVersion.toNat ≠ PROTOCOL_VERSION then .error .unsupportedVersion
  else if m.purpose ≠ "status" || !validRequestId m.requestId then .error .malformed
  else validEnvelope m.bindingId m.nonce m.signature

/-- The prefix both messages sign: domain, versions, purpose, binding and nonce. -/
def signingHead (protocolVersion : UInt8) (purpose bindingId nonce : String) :
    Except AgentRejection (List UInt8) := do
  let binding ← decodeFixed 32 bindingId
  let nonce ← decodeFixed 32 nonce
  let data := appendField (SIGNING_DOMAIN ++ [ENCODING_VERSION, protocolVersion]) (bytes purpose)
  pure (appendField (appendField data binding.toList) nonce.toList)

/-- SRCLINE: protocol.rs:89-111 -/
def SignedSubmission.signingBytes (m : SignedSubmission) : Except AgentRejection (List UInt8) := do
  m.validate
  let head ← signingHead m.protocolVersion m.purpose m.bindingId m.nonce
  let data := appendField head (bytes m.operationId)
  let data := appendField data (hexPairs (bytes m.expectedPolicyRevision))
  pure ((m.args.map bytes).foldl appendField (data ++ toBeBytes m.args.length))

/-- SRCLINE: protocol.rs:185-194 -/
def SignedStatusQuery.signingBytes (m : SignedStatusQuery) : Except AgentRejection (List UInt8) := do
  m.validate
  let head ← signingHead m.protocolVersion m.purpose m.bindingId m.nonce
  let requestId ← decodeFixed 32 m.requestId
  pure (appendField head requestId.toList)

/-- The strict verification both messages go through. -/
def verifySignature (E : Externals) (storedPublicKey signature : String) (data : List UInt8) :
    Except AgentRejection Unit :=
  match decodePublicKey E storedPublicKey with
  | none => .error .unauthorized
  | some key => do
    let signature ← decodeFixed 64 signature
    if E.verifyStrict key data signature then .ok () else .error .unauthorized

/-- SRCLINE: protocol.rs:114-121 -/
def SignedSubmission.verify (E : Externals) (m : SignedSubmission) (storedPublicKey : String) :
    Except AgentRejection Unit := do
  verifySignature E storedPublicKey m.signature (← m.signingBytes)

/-- SRCLINE: protocol.rs:195-202 -/
def SignedStatusQuery.verify (E : Externals) (m : SignedStatusQuery) (storedPublicKey : String) :
    Except AgentRejection Unit := do
  verifySignature E storedPublicKey m.signature (← m.signingBytes)

/-- The binding-scoped replay marker. -/
def replayMarker (E : Externals) (bindingId nonce : String) : Except AgentRejection String := do
  let binding ← decodeFixed 32 bindingId
  let nonce ← decodeFixed 32 nonce
  pure (hexSha256 E
    (appendField (appendField (REPLAY_DOMAIN ++ [ENCODING_VERSION]) binding.toList) nonce.toList))

/-- SRCLINE: protocol.rs:124-131 -/
def SignedSubmission.replayDigest (E : Externals) (m : SignedSubmission) :
    Except AgentRejection String := do
  m.validate
  replayMarker E m.bindingId m.nonce

/-- SRCLINE: protocol.rs:203-210 -/
def SignedStatusQuery.replayDigest (E : Externals) (m : SignedStatusQuery) :
    Except AgentRejection String := do
  m.validate
  replayMarker E m.bindingId m.nonce

/-- SRCLINE: protocol.rs:216-219 -/
inductive AgentEnvelope where
  | submission (input : SignedSubmission)
  | status (input : SignedStatusQuery)
  deriving DecidableEq, Repr

namespace AgentEnvelope

/-- SRCLINE: protocol.rs:226-229 -/
def validate : AgentEnvelope → Except AgentRejection Unit
  | submission input => input.validate
  | status input => input.validate

def signingBytes : AgentEnvelope → Except AgentRejection (List UInt8)
  | submission input => input.signingBytes
  | status input => input.signingBytes

def verify (E : Externals) : AgentEnvelope → String → Except AgentRejection Unit
  | submission input, storedPublicKey => input.verify E storedPublicKey
  | status input, storedPublicKey => input.verify E storedPublicKey

/-- The envelope without its signature. -/
def unsigned : AgentEnvelope → AgentEnvelope
  | submission input => submission { input with signature := "" }
  | status input => status { input with signature := "" }

end AgentEnvelope

end VaultAccess.Model
