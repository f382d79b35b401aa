import VaultAccess.Model.Access

/-!
# The records the provider stores

The types of `src/access/policy.rs`, `src/access/direct_request.rs`,
`src/access/history.rs`, `src/access/agent_binding.rs` and
`src/secret_storage.rs`, and the JSON documents their `Serialize` derivations
write (members in declaration order, skipped members left out).
-/

set_option autoImplicit false

namespace VaultAccess.Model

open VaultAccess.Library

/-- A member that is left out when there is no value. -/
def optionalMember {α : Type} (name : String) (value : Option α) (encode : α → Json) :
    List (String × Json) :=
  match value with
  | some v => [(name, encode v)]
  | none => []

def Json.texts (values : List String) : Json := .arr (values.map .str)

def Json.nat (n : ℕ) : Json := .int n

/-! ## Storage destinations and write receipts -/

/-- SRCLINE: secret_storage.rs:119-125 -/
structure Destination where
  accountId : String
  folder : String
  folderId : String
  reference : String
  deriving DecidableEq, Repr

def Destination.toJson (d : Destination) : Json :=
  .obj [("account_id", .str d.accountId), ("folder", .str d.folder),
    ("folder_id", .str d.folderId), ("reference", .str d.reference)]

/-- SRCLINE: secret_storage.rs:383-388 -/
inductive WriteStatus where
  | failed
  | uncertain
  | createdUnverified
  | verified
  deriving DecidableEq, Repr

def WriteStatus.toJson : WriteStatus → Json
  | failed => .str "failed"
  | uncertain => .str "uncertain"
  | createdUnverified => .str "created_unverified"
  | verified => .str "verified"

/-- SRCLINE: secret_storage.rs:391-395 -/
structure WriteReceipt where
  attemptId : String
  itemId : Option String
  status : WriteStatus
  deriving DecidableEq, Repr

def WriteReceipt.toJson (r : WriteReceipt) : Json :=
  .obj [("attempt_id", .str r.attemptId),
    ("item_id", match r.itemId with | some id => .str id | none => .null),
    ("status", r.status.toJson)]

/-! ## Operation policies -/

/-- SRCLINE: policy.rs:57-62 -/
structure CreateEffect where
  server : String
  destination : Destination
  fields : List String
  eligibilityMarker : String
  deriving DecidableEq, Repr

def CreateEffect.toJson (c : CreateEffect) : Json :=
  .obj [("server", .str c.server), ("destination", c.destination.toJson),
    ("fields", Json.texts c.fields), ("eligibility_marker", .str c.eligibilityMarker)]

/-- SRCLINE: policy.rs:96-100 -/
inductive ExecutionProfile where
  | reviewedSelfContainedElf64V1
  | reviewedNativeMachOArm64V1
  deriving DecidableEq, Repr

def ExecutionProfile.toJson : ExecutionProfile → Json
  | reviewedSelfContainedElf64V1 => .str "reviewed_self_contained_elf64_v1"
  | reviewedNativeMachOArm64V1 => .str "reviewed_native_macho_arm64_v1"

/-- Registration input and inspection metadata; `ApprovedImage` has the same members.
SRCLINE: policy.rs:106-112, policy.rs:131-137 -/
structure ApprovedImage where
  id : String
  executionRoot : String
  path : String
  sha256 : String
  profile : ExecutionProfile
  deriving DecidableEq, Repr

def ApprovedImage.toJson (i : ApprovedImage) : Json :=
  .obj [("id", .str i.id), ("execution_root", .str i.executionRoot), ("path", .str i.path),
    ("sha256", .str i.sha256), ("profile", i.profile.toJson)]

/-- SRCLINE: policy.rs:212-216; bounds are `i64`. -/
inductive ArgumentSpec where
  | target
  | choice (choices : List String)
  | integer (minimum maximum : Int64)
  deriving DecidableEq, Repr

def ArgumentSpec.toJson : ArgumentSpec → Json
  | target => .obj [("type", .str "target")]
  | choice choices => .obj [("type", .str "choice"), ("choices", Json.texts choices)]
  | integer minimum maximum =>
    .obj [("type", .str "integer"), ("minimum", .int minimum.toInt), ("maximum", .int maximum.toInt)]

/-- SRCLINE: policy.rs:220-225 -/
inductive LoginField where
  | notes
  | username
  | password
  | custom (name : String)
  deriving DecidableEq, Repr

def LoginField.toJson : LoginField → Json
  | notes => .str "notes"
  | username => .str "username"
  | password => .str "password"
  | custom name => .obj [("custom", .obj [("name", .str name)])]

/-- SRCLINE: policy.rs:229-232 -/
structure LoginFieldMapping where
  field : LoginField
  environment : String
  deriving DecidableEq, Repr

def LoginFieldMapping.toJson (m : LoginFieldMapping) : Json :=
  .obj [("field", m.field.toJson), ("environment", .str m.environment)]

/-- SRCLINE: policy.rs:236-239 -/
inductive CredentialUse where
  | login
  | ssh
  deriving DecidableEq, Repr

def CredentialUse.toJson : CredentialUse → Json
  | login => .str "login"
  | ssh => .str "ssh"

/-- SRCLINE: policy.rs:243-250 -/
structure LoginCredentialDraft where
  itemId : String
  label : String
  useType : CredentialUse
  fieldMappings : List LoginFieldMapping
  «namespace» : Option Destination
  deriving DecidableEq, Repr

def LoginCredentialDraft.toJson (c : LoginCredentialDraft) : Json :=
  .obj ([("item_id", .str c.itemId), ("label", .str c.label), ("use_type", c.useType.toJson),
    ("field_mappings", .arr (c.fieldMappings.map LoginFieldMapping.toJson))] ++
    optionalMember "namespace" c.namespace Destination.toJson)

/-- SRCLINE: policy.rs:255-259 -/
structure SshCredential where
  itemId : String
  label : String
  useType : CredentialUse
  deriving DecidableEq, Repr

def SshCredential.toJson (c : SshCredential) : Json :=
  .obj [("item_id", .str c.itemId), ("label", .str c.label), ("use_type", c.useType.toJson)]

/-- SRCLINE: policy.rs:262-268 -/
structure SshDestination where
  host : String
  port : UInt16
  user : String
  resourcePath : String
  hostFingerprint : String
  deriving DecidableEq, Repr

def SshDestination.toJson (d : SshDestination) : Json :=
  .obj [("host", .str d.host), ("port", Json.nat d.port.toNat), ("user", .str d.user),
    ("resource_path", .str d.resourcePath), ("host_fingerprint", .str d.hostFingerprint)]

/-- SRCLINE: policy.rs:271-275 -/
structure SshOperation where
  credential : SshCredential
  workingDirectory : String
  destination : SshDestination
  deriving DecidableEq, Repr

def SshOperation.toJson (s : SshOperation) : Json :=
  .obj [("credential", s.credential.toJson), ("working_directory", .str s.workingDirectory),
    ("destination", s.destination.toJson)]

/-- SRCLINE: policy.rs:279-282 -/
structure SshReview where
  workingDirectory : String
  destination : SshDestination
  deriving DecidableEq, Repr

def SshReview.toJson (s : SshReview) : Json :=
  .obj [("working_directory", .str s.workingDirectory), ("destination", s.destination.toJson)]

/-- SRCLINE: policy.rs:36-53 -/
structure OperationPolicyDraft where
  id : String
  description : String
  imageId : String
  targets : List String
  arguments : List ArgumentSpec
  credentials : List LoginCredentialDraft
  ssh : Option SshOperation
  create : Option CreateEffect
  requirePassword : Bool
  deriving DecidableEq, Repr

def OperationPolicyDraft.toJson (d : OperationPolicyDraft) : Json :=
  .obj ([("id", .str d.id), ("description", .str d.description), ("image_id", .str d.imageId),
    ("targets", Json.texts d.targets), ("arguments", .arr (d.arguments.map ArgumentSpec.toJson)),
    ("credentials", .arr (d.credentials.map LoginCredentialDraft.toJson))] ++
    optionalMember "ssh" d.ssh SshOperation.toJson ++
    optionalMember "create" d.create CreateEffect.toJson ++
    (if d.requirePassword then [("require_password", .bool true)] else []))

/-- The image an operation resolved, as snapshotted in its policy.
SRCLINE: policy.rs:387-393 -/
structure ResolvedImage where
  imageId : String
  executionRoot : String
  path : String
  sha256 : String
  profile : ExecutionProfile
  deriving DecidableEq, Repr

def ResolvedImage.toJson (i : ResolvedImage) : Json :=
  .obj [("image_id", .str i.imageId), ("execution_root", .str i.executionRoot),
    ("path", .str i.path), ("sha256", .str i.sha256), ("profile", i.profile.toJson)]

/-- SRCLINE: policy.rs:369-384 -/
structure OperationPolicy where
  id : String
  description : String
  image : ResolvedImage
  targets : List String
  arguments : List ArgumentSpec
  credentials : List LoginCredentialDraft
  ssh : Option SshOperation
  create : Option CreateEffect
  requirePassword : Bool
  revision : String
  deriving DecidableEq, Repr

def OperationPolicy.toJson (p : OperationPolicy) : Json :=
  .obj ([("id", .str p.id), ("description", .str p.description), ("image", p.image.toJson),
    ("targets", Json.texts p.targets), ("arguments", .arr (p.arguments.map ArgumentSpec.toJson)),
    ("credentials", .arr (p.credentials.map LoginCredentialDraft.toJson))] ++
    optionalMember "ssh" p.ssh SshOperation.toJson ++
    optionalMember "create" p.create CreateEffect.toJson ++
    (if p.requirePassword then [("require_password", .bool true)] else []) ++
    [("revision", .str p.revision)])

/-! ## Agent bindings -/

/-- SRCLINE: agent_binding.rs:13-18 -/
structure AgentPairing where
  label : String
  publicKey : String
  uid : UInt32
  gid : UInt32
  deriving DecidableEq, Repr

/-- SRCLINE: agent_binding.rs:22-25 -/
inductive AgentBindingStatus where
  | enabled
  | revoked
  deriving DecidableEq, Repr

def AgentBindingStatus.toJson : AgentBindingStatus → Json
  | enabled => .str "enabled"
  | revoked => .str "revoked"

/-- SRCLINE: agent_binding.rs:30-37 -/
structure AgentBindingView where
  id : String
  label : String
  fingerprint : String
  uid : UInt32
  gid : UInt32
  status : AgentBindingStatus
  deriving DecidableEq, Repr

/-- SRCLINE: agent_binding.rs:41-51 -/
structure AgentBinding where
  id : String
  label : String
  publicKey : String
  fingerprint : String
  uid : UInt32
  gid : UInt32
  status : AgentBindingStatus
  accountUuid : Option String
  deriving DecidableEq, Repr

def AgentBinding.toJson (b : AgentBinding) : Json :=
  .obj ([("id", .str b.id), ("label", .str b.label), ("public_key", .str b.publicKey),
    ("fingerprint", .str b.fingerprint), ("uid", Json.nat b.uid.toNat),
    ("gid", Json.nat b.gid.toNat), ("status", b.status.toJson)] ++
    optionalMember "account_uuid" b.accountUuid .str)

/-- SRCLINE: agent_binding.rs:166-169 -/
inductive AgentAuditAction where
  | paired
  | revoked
  deriving DecidableEq, Repr

def AgentAuditAction.toJson : AgentAuditAction → Json
  | paired => .str "paired"
  | revoked => .str "revoked"

/-- SRCLINE: agent_binding.rs:174-183 -/
structure AgentAuditEvent where
  actorUid : UInt32
  bindingId : String
  label : String
  fingerprint : String
  uid : UInt32
  gid : UInt32
  timestampUnixSeconds : ℕ
  action : AgentAuditAction
  deriving DecidableEq, Repr

def AgentAuditEvent.toJson (e : AgentAuditEvent) : Json :=
  .obj [("actor_uid", Json.nat e.actorUid.toNat), ("binding_id", .str e.bindingId),
    ("label", .str e.label), ("fingerprint", .str e.fingerprint), ("uid", Json.nat e.uid.toNat),
    ("gid", Json.nat e.gid.toNat), ("timestamp_unix_seconds", Json.nat e.timestampUnixSeconds),
    ("action", e.action.toJson)]

/-! ## Direct requests -/

/-- SRCLINE: direct_request.rs:71-78 -/
inductive DirectFailure where
  | reviewUnavailable
  | executionUnavailable
  | executionRejected
  | executionNonzero
  | executionSignaled
  | observationLost
  deriving DecidableEq, Repr

def DirectFailure.toJson : DirectFailure → Json
  | reviewUnavailable => .str "review_unavailable"
  | executionUnavailable => .str "execution_unavailable"
  | executionRejected => .str "execution_rejected"
  | executionNonzero => .str "execution_nonzero"
  | executionSignaled => .str "execution_signaled"
  | observationLost => .str "observation_lost"

/-- SRCLINE: direct_request.rs:81-89 -/
inductive DirectStatus where
  | pending
  | approved
  | denied
  | expired
  | running
  | completed (exitCode : Int)
  | failed (reason : DirectFailure)
  deriving DecidableEq, Repr

def DirectStatus.toJson : DirectStatus → Json
  | pending => .obj [("status", .str "pending")]
  | approved => .obj [("status", .str "approved")]
  | denied => .obj [("status", .str "denied")]
  | expired => .obj [("status", .str "expired")]
  | running => .obj [("status", .str "running")]
  | completed exitCode => .obj [("status", .str "completed"), ("exit_code", .int exitCode)]
  | failed reason => .obj [("status", .str "failed"), ("reason", reason.toJson)]

/-- SRCLINE: direct_request.rs:118-123 -/
def DirectStatus.isTerminal : DirectStatus → Bool
  | denied | expired | completed _ | failed _ => true
  | pending | approved | running => false

/-- SRCLINE: direct_request.rs:136-139 -/
structure ReviewCredential where
  label : String
  useType : CredentialUse
  deriving DecidableEq, Repr

def ReviewCredential.toJson (c : ReviewCredential) : Json :=
  .obj [("label", .str c.label), ("use_type", c.useType.toJson)]

/-- SRCLINE: direct_request.rs:142-161 -/
structure DirectReview where
  id : String
  requester : String
  operation : String
  effect : String
  create : Option CreateEffect
  target : String
  ssh : Option SshReview
  arguments : List String
  credentials : List ReviewCredential
  executableDigest : String
  policyDigest : String
  argumentsDigest : String
  expiresAtUnixSeconds : ℕ
  oneTime : String
  status : DirectStatus
  deriving DecidableEq, Repr

def DirectReview.toJson (r : DirectReview) : Json :=
  .obj ([("id", .str r.id), ("requester", .str r.requester), ("operation", .str r.operation),
    ("effect", .str r.effect)] ++ optionalMember "create" r.create CreateEffect.toJson ++
    [("target", .str r.target)] ++ optionalMember "ssh" r.ssh SshReview.toJson ++
    [("arguments", Json.texts r.arguments),
    ("credentials", .arr (r.credentials.map ReviewCredential.toJson)),
    ("executable_digest", .str r.executableDigest), ("policy_digest", .str r.policyDigest),
    ("arguments_digest", .str r.argumentsDigest),
    ("expires_at_unix_seconds", Json.nat r.expiresAtUnixSeconds), ("one_time", .str r.oneTime),
    ("status", r.status.toJson)])

/-- SRCLINE: direct_request.rs:178-184 -/
structure AgentOwner where
  bindingId : String
  label : String
  fingerprint : String
  uid : UInt32
  gid : UInt32
  deriving DecidableEq, Repr

def AgentOwner.toJson (o : AgentOwner) : Json :=
  .obj [("binding_id", .str o.bindingId), ("label", .str o.label),
    ("fingerprint", .str o.fingerprint), ("uid", Json.nat o.uid.toNat),
    ("gid", Json.nat o.gid.toNat)]

/-- SRCLINE: direct_request.rs:247-258 -/
structure ApprovalBinding where
  requestId : String
  requesterUid : UInt32
  agentOwner : Option AgentOwner
  policyDigest : String
  argumentsDigest : String
  expiresAtUnixSeconds : ℕ
  lifecycleEpoch : ℕ
  recordDigest : String
  deriving DecidableEq, Repr

def ApprovalBinding.toJson (b : ApprovalBinding) : Json :=
  .obj ([("request_id", .str b.requestId), ("requester_uid", Json.nat b.requesterUid.toNat)] ++
    optionalMember "agent_owner" b.agentOwner AgentOwner.toJson ++
    [("policy_digest", .str b.policyDigest), ("arguments_digest", .str b.argumentsDigest),
    ("expires_at_unix_seconds", Json.nat b.expiresAtUnixSeconds),
    ("lifecycle_epoch", Json.nat b.lifecycleEpoch), ("record_digest", .str b.recordDigest)])

/-- SRCLINE: direct_request.rs:261-269 -/
inductive DecisionOutcome where
  | invalidated
  | recovered
  | approved
  | denied
  | expired
  | reviewUnavailable
  | executionUnavailable
  deriving DecidableEq, Repr

/-! ## History -/

/-- SRCLINE: history.rs:14-17 -/
inductive RequesterSnapshot where
  | human (uid : UInt32) (label : String)
  | agent (label fingerprint : String)
  deriving DecidableEq, Repr

def RequesterSnapshot.toJson : RequesterSnapshot → Json
  | human uid label =>
    .obj [("kind", .str "human"), ("uid", Json.nat uid.toNat), ("label", .str label)]
  | agent label fingerprint =>
    .obj [("kind", .str "agent"), ("label", .str label), ("fingerprint", .str fingerprint)]

/-- SRCLINE: history.rs:20-37 -/
inductive HistoryOutcome where
  | submitted
  | approved
  | denied
  | expired
  | reviewUnavailable
  | executionStarted
  | succeeded
  | executionNonzero
  | executionSignaled
  | observationLost
  | executionRejected
  | executionUnavailable
  | invalidated
  | recovered
  | legacyUnknown
  | reconciled
  deriving DecidableEq, Repr

def HistoryOutcome.toJson : HistoryOutcome → Json
  | submitted => .str "submitted"
  | approved => .str "approved"
  | denied => .str "denied"
  | expired => .str "expired"
  | reviewUnavailable => .str "review_unavailable"
  | executionStarted => .str "execution_started"
  | succeeded => .str "succeeded"
  | executionNonzero => .str "execution_nonzero"
  | executionSignaled => .str "execution_signaled"
  | observationLost => .str "observation_lost"
  | executionRejected => .str "execution_rejected"
  | executionUnavailable => .str "execution_unavailable"
  | invalidated => .str "invalidated"
  | recovered => .str "recovered"
  | legacyUnknown => .str "legacy_unknown"
  | reconciled => .str "reconciled"

/-- SRCLINE: history.rs:44-46 -/
inductive ApprovalMethod where
  | biometric (keyId : String)
  deriving DecidableEq, Repr

def ApprovalMethod.toJson : ApprovalMethod → Json
  | biometric keyId => .obj [("method", .str "biometric"), ("key_id", .str keyId)]

/-- SRCLINE: history.rs:49-71 -/
structure HistoryEvent where
  version : ℕ
  requestId : String
  operation : String
  requester : RequesterSnapshot
  policyRevision : String
  credentials : List ReviewCredential
  create : Option CreateEffect
  writeReceipt : Option WriteReceipt
  ssh : Option SshReview
  createdAtUnixSeconds : ℕ
  expiresAtUnixSeconds : ℕ
  atUnixSeconds : Option ℕ
  ordinal : ℕ
  outcome : HistoryOutcome
  status : Option DirectStatus
  approval : Option ApprovalMethod
  deriving DecidableEq, Repr

def HistoryEvent.toJson (e : HistoryEvent) : Json :=
  .obj ([("version", Json.nat e.version), ("request_id", .str e.requestId),
    ("operation", .str e.operation), ("requester", e.requester.toJson),
    ("policy_revision", .str e.policyRevision),
    ("credentials", .arr (e.credentials.map ReviewCredential.toJson))] ++
    optionalMember "create" e.create CreateEffect.toJson ++
    optionalMember "write_receipt" e.writeReceipt WriteReceipt.toJson ++
    optionalMember "ssh" e.ssh SshReview.toJson ++
    [("created_at_unix_seconds", Json.nat e.createdAtUnixSeconds),
    ("expires_at_unix_seconds", Json.nat e.expiresAtUnixSeconds),
    ("at_unix_seconds", match e.atUnixSeconds with | some t => Json.nat t | none => .null),
    ("ordinal", Json.nat e.ordinal), ("outcome", e.outcome.toJson),
    ("status", match e.status with | some s => s.toJson | none => .null)] ++
    optionalMember "approval" e.approval ApprovalMethod.toJson)

/-- SRCLINE: direct_request.rs:219-243 -/
structure DirectRecord where
  ownerUid : UInt32
  agentOwner : Option AgentOwner
  replayDigest : Option String
  createdAtUnixSeconds : ℕ
  lifecycleEpoch : ℕ
  review : DirectReview
  bindingDigest : String
  approval : Option ApprovalBinding
  executionClaimed : Bool
  audit : List HistoryEvent
  historyVersion : ℕ
  writeReceipt : Option WriteReceipt
  deriving DecidableEq, Repr

def DirectRecord.toJson (d : DirectRecord) : Json :=
  .obj ([("owner_uid", Json.nat d.ownerUid.toNat)] ++
    optionalMember "agent_owner" d.agentOwner AgentOwner.toJson ++
    optionalMember "replay_digest" d.replayDigest .str ++
    [("created_at_unix_seconds", Json.nat d.createdAtUnixSeconds),
    ("lifecycle_epoch", Json.nat d.lifecycleEpoch), ("review", d.review.toJson),
    ("binding_digest", .str d.bindingDigest)] ++
    optionalMember "approval" d.approval ApprovalBinding.toJson ++
    [("execution_claimed", .bool d.executionClaimed)] ++
    (if d.audit.isEmpty then [] else [("audit", .arr (d.audit.map HistoryEvent.toJson))]) ++
    [("history_version", Json.nat d.historyVersion)] ++
    optionalMember "write_receipt" d.writeReceipt WriteReceipt.toJson)

/-! ## The provider state -/

/-- SRCLINE: provider_store.rs:271-279 -/
inductive RequestLifecycleStatus where
  | pending
  | approved
  | running
  | invalidated
  | denied
  | completed
  | failed
  deriving DecidableEq, Repr

def RequestLifecycleStatus.toJson : RequestLifecycleStatus → Json
  | pending => .str "pending"
  | approved => .str "approved"
  | running => .str "running"
  | invalidated => .str "invalidated"
  | denied => .str "denied"
  | completed => .str "completed"
  | failed => .str "failed"

/-- SRCLINE: provider_store.rs:281-283 -/
def RequestLifecycleStatus.isUnexecuted : RequestLifecycleStatus → Bool
  | pending | approved | running => true
  | invalidated | denied | completed | failed => false

/-- SRCLINE: provider_store.rs:215-220 -/
structure RequestRecord where
  id : String
  status : RequestLifecycleStatus
  direct : Option DirectRecord
  deriving DecidableEq, Repr

def RequestRecord.toJson (r : RequestRecord) : Json :=
  .obj ([("id", .str r.id), ("status", r.status.toJson)] ++
    optionalMember "direct" r.direct DirectRecord.toJson)

/-- SRCLINE: provider_store.rs:45-58 -/
structure ProviderState where
  schemaVersion : ℕ
  lifecycleEpoch : ℕ
  pairings : List AgentBinding
  agentAudit : List AgentAuditEvent
  queryReplayMarkers : List String
  approvedImages : List ApprovedImage
  operations : List OperationPolicy
  requests : List RequestRecord
  deriving DecidableEq, Repr

def ProviderState.toJson (s : ProviderState) : Json :=
  .obj [("schema_version", Json.nat s.schemaVersion), ("lifecycle_epoch", Json.nat s.lifecycleEpoch),
    ("pairings", .arr (s.pairings.map AgentBinding.toJson)),
    ("agent_audit", .arr (s.agentAudit.map AgentAuditEvent.toJson)),
    ("query_replay_markers", Json.texts s.queryReplayMarkers),
    ("approved_images", .arr (s.approvedImages.map ApprovedImage.toJson)),
    ("operations", .arr (s.operations.map OperationPolicy.toJson)),
    ("requests", .arr (s.requests.map RequestRecord.toJson))]

/-! ## Errors -/

/-- SRCLINE: provider.rs:13-22 -/
inductive ProviderDiagnostic where
  | unsafeState
  | invalidState
  | persistenceFailure
  | invalidOperationPolicy
  | credentialIneligible
  | staleOperationPolicyRevision
  | expiredAccessRequest
  | conflict
  deriving DecidableEq, Repr

/-- SRCLINE: direct_request.rs:31-41 -/
inductive DirectRequestError where
  | unauthorized
  | locked
  | invalidRequest
  | staleRevision
  | notFound
  | unavailable
  | reviewUnavailable
  | alreadyDecided
  | authenticationFailed
  deriving DecidableEq, Repr

/-- SRCLINE: protocol.rs:318-337 -/
inductive AgentRejection where
  | unauthorized
  | malformed
  | unsupportedVersion
  | replay
  | staleRevision
  | invalidArguments
  | locked
  | busy
  | unavailable
  deriving DecidableEq, Repr

/-- SRCLINE: application.rs:2362-2372 -/
def AgentRejection.ofDirect : DirectRequestError → AgentRejection
  | .unauthorized => unauthorized
  | .locked => locked
  | .invalidRequest => invalidArguments
  | .staleRevision => staleRevision
  | _ => unavailable

end VaultAccess.Model
