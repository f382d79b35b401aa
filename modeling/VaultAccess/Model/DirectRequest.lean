import VaultAccess.Model.Policy

/-!
# Direct requests and their history

`src/access/history.rs`, `src/access/direct_request.rs` and
`src/access/agent_binding.rs`: history events and when they fit a record, the
seal of a record, the approval binding and the validity of a stored record,
agent bindings and the validity of their registry.
-/

set_option autoImplicit false

namespace VaultAccess.Model

open VaultAccess.Library VaultAccess.Library.Text

def HISTORY_VERSION : ℕ := 1
def MAX_AGENT_LABEL_LEN : ℕ := 128

/-! ## Owners -/

/-- SRCLINE: direct_request.rs:214-217 -/
inductive RequestOwner where
  | human (uid : UInt32)
  | agent (owner : AgentOwner)
  deriving DecidableEq, Repr

/-- SRCLINE: direct_request.rs:498-502 -/
def DirectRecord.owner (d : DirectRecord) : RequestOwner :=
  match d.agentOwner with
  | some owner => .agent owner
  | none => .human d.ownerUid

/-- SRCLINE: direct_request.rs:503-508 -/
def DirectRecord.humanVisible (d : DirectRecord) (human providerUid : UInt32) : Bool :=
  match d.owner with
  | .human uid => uid = human
  | .agent _ => human = providerUid

/-- Printable ASCII and spaces, not only spaces, at most 128 bytes.
SRCLINE: agent_binding.rs:231-238 -/
def validLabel (label : String) : Bool :=
  !label.isEmpty && decide (label.utf8ByteSize ≤ MAX_AGENT_LABEL_LEN) &&
    label.toList.all (fun c => isAsciiGraphic c || c = ' ') && label.toList.any isAsciiGraphic

/-- SRCLINE: agent_binding.rs:240-242 -/
def validOsId (id : UInt32) : Bool := id ≠ 0 && id ≠ u32Max

/-- SRCLINE: direct_request.rs:186-194 -/
def AgentOwner.fromBinding (binding : AgentBinding) : AgentOwner where
  bindingId := binding.id
  label := binding.label
  fingerprint := binding.fingerprint
  uid := binding.uid
  gid := binding.gid

/-- SRCLINE: direct_request.rs:195-197 -/
def AgentOwner.reviewRequester (o : AgentOwner) : String :=
  "agent " ++ o.label ++ " (" ++ o.fingerprint ++ ")"

/-- SRCLINE: direct_request.rs:198-200 -/
def AgentOwner.«matches» (o : AgentOwner) (binding : AgentBinding) : Bool :=
  o = AgentOwner.fromBinding binding

/-- SRCLINE: direct_request.rs:201-215 -/
def AgentOwner.valid (o : AgentOwner) : Bool :=
  validRequestId o.bindingId && validSha256 o.fingerprint && validLabel o.label &&
    validOsId o.uid && validOsId o.gid

/-! ## History events -/

def RequestOwner.snapshot (requester : String) : RequestOwner → RequesterSnapshot
  | human uid => .human uid requester
  | agent owner => .agent owner.label owner.fingerprint

/-- SRCLINE: history.rs:123-164 -/
def HistoryEvent.snapshot (d : DirectRecord) (ordinal now : ℕ) (outcome : HistoryOutcome)
    (status : Option DirectStatus) : HistoryEvent where
  version := HISTORY_VERSION
  requestId := d.review.id
  operation := d.review.operation
  requester := d.owner.snapshot d.review.requester
  policyRevision := d.review.policyDigest
  credentials := d.review.credentials
  create := d.review.create
  writeReceipt := d.writeReceipt
  ssh := d.review.ssh
  createdAtUnixSeconds := d.createdAtUnixSeconds
  expiresAtUnixSeconds := d.review.expiresAtUnixSeconds
  atUnixSeconds := some now
  ordinal := ordinal
  outcome := outcome
  status := status
  approval := none

/-- Not empty and at most 256 bytes. -/
def shortText (s : String) : Bool := !s.isEmpty && decide (s.utf8ByteSize ≤ 256)

def RequesterSnapshot.valid : RequesterSnapshot → Bool
  | human uid label => uid ≠ u32Max && shortText label
  | agent label fingerprint => shortText label && validSha256 fingerprint

/-- Which statuses an outcome may report.
SRCLINE: history.rs:193-254 -/
def HistoryOutcome.consistent : HistoryOutcome → Option DirectStatus → Bool
  | reconciled, some status => status.isTerminal
  | submitted, some .pending => true
  | approved, some .approved => true
  | denied, some .denied => true
  | expired, some .expired => true
  | reviewUnavailable, some .expired => true
  | reviewUnavailable, some (.failed .reviewUnavailable) => true
  | invalidated, some .expired => true
  | executionStarted, some .running => true
  | succeeded, some (.completed exitCode) => exitCode = 0
  | executionNonzero, some (.failed .executionNonzero) => true
  | executionNonzero, some (.completed exitCode) => decide (1 ≤ exitCode) && decide (exitCode ≤ 255)
  | executionSignaled, some (.failed .executionSignaled) => true
  | executionRejected, some (.failed .executionRejected) => true
  | executionUnavailable, some .expired => true
  | executionUnavailable, some (.failed .executionUnavailable) => true
  | recovered, some .expired => true
  | recovered, some (.failed .executionUnavailable) => true
  | recovered, some (.failed .observationLost) => true
  | observationLost, some (.failed .observationLost) => true
  | legacyUnknown, _ => true
  | _, _ => false

/-- The approval method of an event.
SRCLINE: history.rs:184-188 -/
def HistoryEvent.approvalValid (e : HistoryEvent) : Bool :=
  match e.approval with
  | some (.biometric keyId) => e.outcome = .approved && validSha256 keyId
  | none => true

/-- SRCLINE: history.rs:165-191 -/
def HistoryEvent.valid (e : HistoryEvent) : Bool :=
  e.version = HISTORY_VERSION && validRequestId e.requestId && validOperationId e.operation &&
    validSha256 e.policyRevision && decide (e.createdAtUnixSeconds < e.expiresAtUnixSeconds) &&
    e.requester.valid && !e.credentials.isEmpty && decide (e.credentials.length ≤ 16) &&
    e.credentials.all (fun c => shortText c.label) &&
    (e.atUnixSeconds.isSome || e.outcome = .legacyUnknown) && e.ssh.all SshReview.valid &&
    e.approvalValid && e.outcome.consistent e.status

/-- An event's receipt is of the same attempt as the record's, and names no other item.
SRCLINE: history.rs:265-275 -/
def receiptExtends (receipt : WriteReceipt) (latest : Option WriteReceipt) : Bool :=
  match latest with
  | some latest => receipt.attemptId = latest.attemptId &&
    receipt.itemId.all fun id => latest.itemId = some id
  | none => false

/-- SRCLINE: history.rs:255-279 -/
def HistoryEvent.matchesRecord (e : HistoryEvent) (d : DirectRecord) : Bool :=
  let expected := { HistoryEvent.snapshot d e.ordinal (e.atUnixSeconds.getD 0) e.outcome e.status with
    atUnixSeconds := e.atUnixSeconds
    writeReceipt := e.writeReceipt
    approval := e.approval }
  e.writeReceipt.all (fun receipt => receiptExtends receipt d.writeReceipt) && e.valid &&
    e = expected

/-- SRCLINE: history.rs:298-330 -/
def outcome (status : DirectStatus) (decision : DecisionOutcome) : HistoryOutcome :=
  match status with
  | .pending => .submitted
  | .approved => .approved
  | .denied => .denied
  | .running => .executionStarted
  | .completed exitCode => if exitCode = 0 then .succeeded else .executionNonzero
  | .failed .reviewUnavailable => .reviewUnavailable
  | .failed .executionUnavailable =>
    if decision = .recovered then .recovered else .executionUnavailable
  | .failed .executionRejected => .executionRejected
  | .failed .executionNonzero => .executionNonzero
  | .failed .executionSignaled => .executionSignaled
  | .failed .observationLost => if decision = .recovered then .recovered else .observationLost
  | .expired => match decision with
    | .reviewUnavailable => .reviewUnavailable
    | .executionUnavailable => .executionUnavailable
    | .invalidated => .invalidated
    | .recovered => .recovered
    | .approved | .denied | .expired => .expired

/-! ## Records -/

/-- SRCLINE: direct_request.rs:575-586 -/
def DirectRecord.approvalBinding (d : DirectRecord) : ApprovalBinding where
  requestId := d.review.id
  requesterUid := d.ownerUid
  agentOwner := d.agentOwner
  policyDigest := d.review.policyDigest
  argumentsDigest := d.review.argumentsDigest
  expiresAtUnixSeconds := d.review.expiresAtUnixSeconds
  lifecycleEpoch := d.lifecycleEpoch
  recordDigest := d.bindingDigest

/-- SRCLINE: direct_request.rs:590-632 -/
def DirectRecord.digest (E : Externals) (d : DirectRecord) : String :=
  let review := { d.review with status := .pending }
  match d.replayDigest, d.agentOwner with
  | some replayDigest, owner =>
    hexSha256 E (Json.arr [Json.nat 3, Json.nat d.ownerUid.toNat,
      (match owner with | some o => o.toJson | none => .null), .str replayDigest,
      Json.nat d.createdAtUnixSeconds, Json.nat d.lifecycleEpoch, review.toJson]).toVec
  | none, some owner =>
    hexSha256 E (Json.arr [Json.nat 2, Json.nat d.ownerUid.toNat, owner.toJson,
      Json.nat d.createdAtUnixSeconds, Json.nat d.lifecycleEpoch, review.toJson]).toVec
  | none, none =>
    hexSha256 E (Json.arr [Json.nat 1, Json.nat d.ownerUid.toNat,
      Json.nat d.createdAtUnixSeconds, Json.nat d.lifecycleEpoch, review.toJson]).toVec

/-- SRCLINE: direct_request.rs:587-589 -/
def DirectRecord.seal (E : Externals) (d : DirectRecord) : DirectRecord :=
  { d with bindingDigest := d.digest E }

/-- The status is one only an execution reaches. -/
def DirectStatus.isExecuted : DirectStatus → Bool
  | running | completed _ | failed _ => true
  | pending | approved | denied | expired => false

/-- An execution event needs the claim; legacy snapshots and recovery are exempt.
SRCLINE: direct_request.rs:523-535 -/
def HistoryEvent.claimConsistent (e : HistoryEvent) (executionClaimed : Bool) : Bool :=
  executionClaimed || !e.status.any DirectStatus.isExecuted ||
    e.outcome = .legacyUnknown || e.outcome = .recovered

/-- SRCLINE: direct_request.rs:537-542 -/
def HistoryEvent.isFirst (e : HistoryEvent) (createdAtUnixSeconds : ℕ) : Bool :=
  (e.outcome = .submitted && e.atUnixSeconds = some createdAtUnixSeconds) ||
    (e.outcome = .legacyUnknown && e.atUnixSeconds.isNone)

/-- The statuses an event may follow.
SRCLINE: direct_request.rs:547-566 -/
def statusFollows : DirectStatus → DirectStatus → Bool
  | .pending, .approved | .pending, .denied | .pending, .expired => true
  | .approved, .running | .approved, .expired | .approved, .failed _ => true
  | .running, .completed _ | .running, .failed _ => true
  | _, _ => false

/-- SRCLINE: direct_request.rs:543-569 -/
def HistoryEvent.follows (e : HistoryEvent) (previous : Option DirectStatus) : Bool :=
  (e.outcome = .reconciled && previous.any DirectStatus.isTerminal && previous = e.status) ||
    match previous, e.status with
    | some before, some after => statusFollows before after
    | _, _ => false

/-- The loop over the events from `ordinal` on; the result is the last status.
SRCLINE: direct_request.rs:515-571 -/
def DirectRecord.historyLoop (d : DirectRecord) :
    ℕ → Option DirectStatus → List HistoryEvent → Option (Option DirectStatus)
  | _, previous, [] => some previous
  | ordinal, previous, event :: rest =>
    if event.ordinal = ordinal && event.matchesRecord d && event.claimConsistent d.executionClaimed &&
        (if ordinal = 0 then event.isFirst d.createdAtUnixSeconds else event.follows previous) then
      d.historyLoop (ordinal + 1) event.status rest
    else none

/-- SRCLINE: direct_request.rs:509-574 -/
def DirectRecord.validateHistory (d : DirectRecord) : Bool :=
  d.historyVersion = HISTORY_VERSION && !d.audit.isEmpty && decide (d.audit.length ≤ 5) &&
    match d.historyLoop 0 none d.audit with
    | some previous =>
      previous = some d.review.status &&
        (!d.review.status.isTerminal || d.audit.getLast?.any fun e => e.writeReceipt = d.writeReceipt)
    | none => false

/-- A text the reviewer sees: not empty, at most 256 bytes and without control characters. -/
def reviewText (s : String) : Bool :=
  !s.isEmpty && decide (s.utf8ByteSize ≤ 256) && !s.toList.any isControl

/-- SRCLINE: direct_request.rs:636-651 -/
def DirectRecord.receiptValid (d : DirectRecord) (receipt : WriteReceipt) : Bool :=
  d.review.create.isSome && d.executionClaimed && receipt.attemptId = d.review.id &&
    receipt.itemId.all validId &&
    (!(receipt.status = .verified || receipt.status = .createdUnverified) || receipt.itemId.isSome)

/-- SRCLINE: direct_request.rs:667-674 -/
def DirectRecord.ownerValid (d : DirectRecord) : Bool :=
  match d.agentOwner with
  | some owner => owner.valid && owner.uid = d.ownerUid && d.review.requester = owner.reviewRequester
  | none => d.review.requester = HUMAN_REQUESTER

/-- The checks of a review that do not change over its life.
SRCLINE: direct_request.rs:675-699 -/
def DirectReview.valid (E : Externals) (r : DirectReview) : Bool :=
  validOperationId r.operation && reviewText r.effect &&
    r.create.all (fun c => c.valid && r.ssh.isNone && r.effect = CREATE_EFFECT &&
      r.target = c.destination.reference) &&
    (match r.ssh with
      | some ssh => decide (r.target = ssh.target)
      | none => reviewText r.target) &&
    r.ssh.all SshReview.valid && decide (r.arguments.length ≤ 32) && r.arguments.all reviewText &&
    !r.credentials.isEmpty && decide (r.credentials.length ≤ 16) &&
    r.credentials.all (fun c => reviewText c.label) && validSha256 r.executableDigest &&
    validSha256 r.policyDigest && r.argumentsDigest = Model.argumentsDigest E r.arguments &&
    (r.oneTime = ONE_TIME || r.oneTime = PREVIOUS_ONE_TIME || r.oneTime = LEGACY_ONE_TIME)

/-- The exit code of a completed status fits a byte. -/
def DirectStatus.exitInRange : DirectStatus → Bool
  | completed exitCode => decide (0 ≤ exitCode) && decide (exitCode ≤ 255)
  | pending | approved | denied | expired | running | failed _ => true

/-- SRCLINE: direct_request.rs:633-701 -/
def DirectRecord.validate (E : Externals) (d : DirectRecord) (id : String) (epoch : ℕ) : Bool :=
  d.writeReceipt.all d.receiptValid && d.bindingDigest = d.digest E &&
    d.replayDigest.all (fun digest => d.agentOwner.isSome && validSha256 digest) &&
    d.approval.all (fun binding => binding = d.approvalBinding) &&
    (!(d.review.status = .approved || d.review.status = .running) || d.approval.isSome ||
      d.review.oneTime = LEGACY_ONE_TIME) &&
    d.validateHistory && validRequestId id && d.review.id = id && d.ownerUid ≠ u32Max &&
    decide (d.lifecycleEpoch ≤ epoch) &&
    decide (d.createdAtUnixSeconds < d.review.expiresAtUnixSeconds) && d.ownerValid &&
    d.review.valid E && d.review.status.exitInRange

/-! ## Agent bindings -/

/-- SRCLINE: agent_binding.rs:80-115 -/
def AgentBinding.validate (E : Externals) (b : AgentBinding) (providerUid : UInt32) : Bool :=
  match decodePublicKey E b.publicKey with
  | some key => validRequestId b.id && validLabel b.label && validOsId b.uid && validOsId b.gid &&
    b.uid ≠ providerUid && b.fingerprint = hexSha256 E key.toList
  | none => false

/-- The binding of an accepted pairing, under a random identifier.
SRCLINE: agent_binding.rs:54-78 -/
def AgentBinding.new (E : Externals) (input : AgentPairing) (providerUid : UInt32)
    (random : Vector UInt8 32) : Option AgentBinding :=
  match decodePublicKey E input.publicKey with
  | some key =>
    let binding : AgentBinding :=
      { id := newRandom random, label := input.label, publicKey := input.publicKey,
        fingerprint := hexSha256 E key.toList, uid := input.uid, gid := input.gid,
        status := .enabled, accountUuid := none }
    if binding.validate E providerUid then some binding else none
  | none => none

/-- SRCLINE: agent_binding.rs:118-130 -/
def AgentBinding.enabledCurrent (b : AgentBinding) : Bool := b.status = .enabled

/-- SRCLINE: agent_binding.rs:133-135 -/
def AgentBinding.matchesOs (b : AgentBinding) (uid : UInt32) (groups : List UInt32) : Bool :=
  b.uid = uid && groups.contains b.gid && b.enabledCurrent

/-- SRCLINE: agent_binding.rs:137-146 -/
def AgentBinding.view (b : AgentBinding) : AgentBindingView where
  id := b.id
  label := b.label
  fingerprint := b.fingerprint
  uid := b.uid
  gid := b.gid
  status := b.status

/-- SRCLINE: agent_binding.rs:148-164 -/
def AgentBinding.audit (b : AgentBinding) (actorUid : UInt32) (now : ℕ) (action : AgentAuditAction) :
    AgentAuditEvent where
  actorUid := actorUid
  bindingId := b.id
  label := b.label
  fingerprint := b.fingerprint
  uid := b.uid
  gid := b.gid
  timestampUnixSeconds := now
  action := action

/-- `HashMap::insert` of the last action of each binding. -/
def insertAction (actions : List (String × AgentAuditAction)) (id : String)
    (action : AgentAuditAction) : List (String × AgentAuditAction) :=
  (id, action) :: actions

/-- The loop over the audit events; the result is the last action of each binding.
SRCLINE: agent_binding.rs:203-218 -/
def auditLoop (bindings : List AgentBinding) (providerUid : UInt32) :
    List (String × AgentAuditAction) → List AgentAuditEvent →
      Option (List (String × AgentAuditAction))
  | actions, [] => some actions
  | actions, event :: rest =>
    match bindings.find? (·.id = event.bindingId) with
    | none => none
    | some binding =>
      if event ≠ binding.audit providerUid event.timestampUnixSeconds event.action then none
      else match actions.lookup event.bindingId, event.action with
        | none, .paired | some .paired, .revoked =>
          auditLoop bindings providerUid (insertAction actions event.bindingId event.action) rest
        | _, _ => none

def AgentBindingStatus.lastAction : AgentBindingStatus → AgentAuditAction
  | enabled => .paired
  | revoked => .revoked

/-- SRCLINE: agent_binding.rs:185-229 -/
def validateRegistry (E : Externals) (bindings : List AgentBinding) (audit : List AgentAuditEvent)
    (providerUid : UInt32) : Bool :=
  bindings.all (·.validate E providerUid) && decide ((bindings.map (·.id)).Nodup) &&
    decide ((bindings.map (·.publicKey)).Nodup) &&
    decide (((bindings.filter (·.status = .enabled)).map (·.label)).Nodup) &&
    match auditLoop bindings providerUid [] audit with
    | some actions =>
      bindings.all fun binding => actions.lookup binding.id = some binding.status.lastAction
    | none => false

end VaultAccess.Model
