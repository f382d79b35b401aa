import VaultAccess.Model.DirectRequest

/-!
# The provider state

`src/access/provider_store.rs`: the initial state, the one mutation path of a
request, the validator every read and every write runs, and the conversions a
stored document goes through when it is read. A document is represented by the
fields `serde_json` hands to those conversions.
-/

set_option autoImplicit false

namespace VaultAccess.Model

open VaultAccess.Library VaultAccess.Library.Text

def STATE_SCHEMA_VERSION : ℕ := 2

/-- SRCLINE: provider_store.rs:103-114 -/
def ProviderState.initial : ProviderState where
  schemaVersion := STATE_SCHEMA_VERSION
  lifecycleEpoch := 0
  pairings := []
  agentAudit := []
  queryReplayMarkers := []
  approvedImages := []
  operations := []
  requests := []

/-! ## Transitions -/

/-- SRCLINE: provider_store.rs:235-242 -/
def DirectRecord.legal (d : DirectRecord) (next : DirectStatus) : Bool :=
  match d.review.status, next with
  | .pending, .approved | .pending, .denied | .pending, .expired => true
  | .approved, .expired | .approved, .running => true
  | .running, .completed _ | .running, .failed _ => true
  | .approved, .failed _ => d.executionClaimed
  | _, _ => false

/-- The lifecycle status that goes with a direct status.
SRCLINE: provider_store.rs:246-254 -/
def DirectStatus.lifecycle : DirectStatus → RequestLifecycleStatus
  | pending => .pending
  | approved => .approved
  | denied => .denied
  | expired => .invalidated
  | running => .running
  | completed _ => .completed
  | failed _ => .failed

/-- The record after a legal transition. -/
def DirectRecord.advance (d : DirectRecord) (next : DirectStatus) (decision : DecisionOutcome)
    (now : ℕ) : DirectRecord :=
  let approval := if next = .approved then some d.approvalBinding
    else if next.isTerminal then none else d.approval
  let d := { d with approval := approval }
  { d with
    audit := d.audit ++
      [HistoryEvent.snapshot d d.audit.length now (outcome next decision) (some next)]
    review := { d.review with status := next } }

/-- SRCLINE: provider_store.rs:223-268 -/
def RequestRecord.transition (r : RequestRecord) (next : DirectStatus) (decision : DecisionOutcome)
    (now : ℕ) : Except ProviderDiagnostic RequestRecord :=
  match r.direct with
  | none => .error .invalidState
  | some d =>
    if d.legal next then
      .ok { r with status := next.lifecycle, direct := some (d.advance next decision now) }
    else .error .invalidState

/-! ## The validator -/

/-- The two statuses of a request agree.
SRCLINE: provider_store.rs:179-193 -/
def consistentStatus (status : RequestLifecycleStatus) (direct : DirectStatus) : Bool :=
  status = direct.lifecycle

/-- An unclaimed request that may still execute is of the current epoch.
SRCLINE: provider_store.rs:201-205 -/
def RequestRecord.epochValid (r : RequestRecord) (d : DirectRecord) (epoch : ℕ) : Bool :=
  !(r.status.isUnexecuted && !d.executionClaimed && r.status ≠ .running &&
    d.lifecycleEpoch ≠ epoch)

/-- The checks of one request.
SRCLINE: provider_store.rs:166-208 -/
def RequestRecord.validate (E : Externals) (pairings : List AgentBinding) (epoch : ℕ)
    (r : RequestRecord) : Bool :=
  match r.direct with
  | none => true
  | some d =>
    d.agentOwner.all (fun owner => pairings.any fun binding => owner.matches binding) &&
      consistentStatus r.status d.review.status && d.validate E r.id epoch && r.epochValid d epoch

/-- The replay digest of a request. -/
def RequestRecord.replayDigest (r : RequestRecord) : Option String :=
  r.direct.bind (·.replayDigest)

/-- Every replay marker of the state: status queries, then submissions. -/
def ProviderState.replayMarkers (s : ProviderState) : List String :=
  s.queryReplayMarkers ++ s.requests.filterMap RequestRecord.replayDigest

/-- The policy is intact and its image is the registered one.
SRCLINE: provider_store.rs:143-157 -/
def ProviderState.operationValid (E : Externals) (disk : Disk) (s : ProviderState)
    (policy : OperationPolicy) : Bool :=
  policy.validateIntegrity E disk &&
    match s.approvedImages.find? (·.id = policy.imageId) with
    | some image => policy.imageMatches image
    | none => false

/-- Every failure is the diagnostic `InvalidState`.
SRCLINE: provider_store.rs:123-211 -/
def ProviderState.validateForOwner (E : Externals) (disk : Disk) (ownerUid : UInt32)
    (s : ProviderState) : Bool :=
  s.schemaVersion = STATE_SCHEMA_VERSION && validateRegistry E s.pairings s.agentAudit ownerUid &&
    !hasDuplicates (s.approvedImages.map (·.id)) &&
    s.approvedImages.all (·.validateIntegrity E disk) &&
    !hasDuplicates (s.operations.map (·.id)) && s.operations.all (s.operationValid E disk) &&
    s.queryReplayMarkers.all validSha256 && decide (s.replayMarkers.Nodup) &&
    decide ((s.requests.map (·.id)).Nodup) &&
    s.requests.all (·.validate E s.pairings s.lifecycleEpoch)

/-! ## Stored documents -/

/-- SRCLINE: direct_request.rs:272-276 -/
structure LegacyDecisionAudit where
  binding : ApprovalBinding
  atUnixSeconds : ℕ
  outcome : DecisionOutcome
  deriving DecidableEq, Repr

/-- SRCLINE: direct_request.rs:280-283 -/
inductive StoredAudit where
  | current (event : HistoryEvent)
  | legacy (event : LegacyDecisionAudit)
  deriving DecidableEq, Repr

/-- SRCLINE: direct_request.rs:286-304 -/
structure DirectRecordWire where
  ownerUid : UInt32
  agentOwner : Option AgentOwner
  replayDigest : Option String
  createdAtUnixSeconds : ℕ
  lifecycleEpoch : ℕ
  review : DirectReview
  bindingDigest : String
  approval : Option ApprovalBinding
  executionClaimed : Bool
  audit : List StoredAudit
  historyVersion : Option ℕ
  writeReceipt : Option WriteReceipt
  deriving DecidableEq, Repr

structure StoredRequest where
  id : String
  status : RequestLifecycleStatus
  direct : Option DirectRecordWire
  deriving DecidableEq, Repr

/-- SRCLINE: provider_store.rs:64-75 -/
structure StoredProviderState where
  schemaVersion : ℕ
  lifecycleEpoch : ℕ
  pairings : List AgentBinding
  agentAudit : Option (List AgentAuditEvent)
  queryReplayMarkers : List String
  approvedImages : List ApprovedImage
  operations : List OperationPolicy
  requests : List StoredRequest
  deriving DecidableEq, Repr

/-- The exit code of a stored status is a `u8`.
SRCLINE: direct_request.rs:94-116 -/
def DirectStatus.tryFrom (status : DirectStatus) : Option DirectStatus :=
  if status.exitInRange then some status else none

/-- SRCLINE: history.rs:94-119 -/
def HistoryEvent.tryFrom (w : HistoryEvent) : Option HistoryEvent := do
  if let some status := w.status then
    let _ ← status.tryFrom
  if w.valid then some w else none

/-- A stored audit entry: a current event, else a legacy decision. -/
def StoredAudit.tryFrom : StoredAudit → Option StoredAudit
  | current event => event.tryFrom.map current
  | legacy event => some (legacy event)

/-- The record the decoder starts from, before its audit. -/
def DirectRecordWire.base (w : DirectRecordWire) : DirectRecord where
  ownerUid := w.ownerUid
  agentOwner := w.agentOwner
  replayDigest := w.replayDigest
  createdAtUnixSeconds := w.createdAtUnixSeconds
  lifecycleEpoch := w.lifecycleEpoch
  review := w.review
  bindingDigest := w.bindingDigest
  approval := w.approval
  executionClaimed := w.executionClaimed
  audit := []
  historyVersion := HISTORY_VERSION
  writeReceipt := w.writeReceipt

def StoredAudit.current? : StoredAudit → Option HistoryEvent
  | current event => some event
  | legacy _ => none

/-- The status a legacy decision leads to.
SRCLINE: direct_request.rs:356-398 -/
def legacyNext (final previous : DirectStatus) (last : Bool) : DecisionOutcome → Option DirectStatus
  | .approved => match previous, final with
    | .pending, _ => some .approved
    | .approved, _ => some .running
    | .running, .completed exitCode => if last then some (.completed exitCode) else none
    | _, _ => none
  | .denied => if previous = .pending then some .denied else none
  | .expired | .reviewUnavailable =>
    if previous = .pending || previous = .approved then some .expired else none
  | .executionUnavailable => match last, final with
    | true, .expired => some .expired
    | true, .failed reason => some (.failed reason)
    | _, _ => none
  | .invalidated | .recovered => none

/-- The loop over legacy decisions: the events pushed and the last status.
SRCLINE: direct_request.rs:344-410 -/
def DirectRecord.legacyLoop (d : DirectRecord) :
    ℕ → DirectStatus → List StoredAudit → Option (List HistoryEvent × DirectStatus)
  | _, previous, [] => some ([], previous)
  | index, previous, .legacy event :: rest =>
    if event.binding ≠ d.approvalBinding then none
    else match legacyNext d.review.status previous rest.isEmpty event.outcome with
      | some next => (d.legacyLoop (index + 1) next rest).map fun (events, final) =>
        (HistoryEvent.snapshot d (index + 1) event.atUnixSeconds .legacyUnknown (some next) :: events,
          final)
      | none => none
  | _, _, .current _ :: _ => none

/-- The audit of a record stored without a history version.
SRCLINE: direct_request.rs:332-424 -/
def DirectRecordWire.legacyAudit (w : DirectRecordWire) : Option (List HistoryEvent) :=
  let record := w.base
  let submitted :=
    HistoryEvent.snapshot record 0 record.createdAtUnixSeconds .submitted (some .pending)
  if 3 < w.audit.length then none
  else match record.legacyLoop 0 .pending w.audit with
    | none => none
    | some (events, previous) =>
      if w.audit.isEmpty && record.review.status ≠ .pending then
        some ({ submitted with
          outcome := .legacyUnknown
          atUnixSeconds := none
          status := some record.review.status } :: events)
      else if previous ≠ record.review.status then none
      else some (submitted :: events)

/-- SRCLINE: direct_request.rs:305-431 -/
def DirectRecordWire.tryFrom (w : DirectRecordWire) : Option DirectRecord := do
  let _ ← w.review.status.tryFrom
  let audit ← w.audit.mapM StoredAudit.tryFrom
  if w.agentOwner.isSome && w.historyVersion ≠ some HISTORY_VERSION then none
  else
    let events ← match w.historyVersion with
      | some version => if version = HISTORY_VERSION then audit.mapM StoredAudit.current? else none
      | none => DirectRecordWire.legacyAudit { w with audit := audit }
    let record := { w.base with audit := events }
    if record.validateHistory then some record else none

def StoredRequest.tryFrom (w : StoredRequest) : Option RequestRecord :=
  match w.direct with
  | none => some ⟨w.id, w.status, none⟩
  | some direct => direct.tryFrom.map fun d => ⟨w.id, w.status, some d⟩

/-- SRCLINE: provider_store.rs:77-100 -/
def StoredProviderState.tryFrom (E : Externals) (disk : Disk) (raw : StoredProviderState) :
    Option ProviderState := do
  let operations ← raw.operations.mapM (·.tryFrom E disk)
  let requests ← raw.requests.mapM StoredRequest.tryFrom
  let agentAudit ←
    if raw.schemaVersion = 1 && raw.pairings.isEmpty && raw.agentAudit.isNone then some []
    else if raw.schemaVersion = STATE_SCHEMA_VERSION then raw.agentAudit
    else none
  pure
    { schemaVersion := STATE_SCHEMA_VERSION
      lifecycleEpoch := raw.lifecycleEpoch
      pairings := raw.pairings
      agentAudit := agentAudit
      queryReplayMarkers := raw.queryReplayMarkers
      approvedImages := raw.approvedImages
      operations := operations
      requests := requests }

/-- The document of a record: `Serialize` writes every event in the current form. -/
def DirectRecord.wire (d : DirectRecord) : DirectRecordWire where
  ownerUid := d.ownerUid
  agentOwner := d.agentOwner
  replayDigest := d.replayDigest
  createdAtUnixSeconds := d.createdAtUnixSeconds
  lifecycleEpoch := d.lifecycleEpoch
  review := d.review
  bindingDigest := d.bindingDigest
  approval := d.approval
  executionClaimed := d.executionClaimed
  audit := d.audit.map .current
  historyVersion := some d.historyVersion
  writeReceipt := d.writeReceipt

def RequestRecord.wire (r : RequestRecord) : StoredRequest :=
  ⟨r.id, r.status, r.direct.map DirectRecord.wire⟩

/-- The document of a state. -/
def ProviderState.wire (s : ProviderState) : StoredProviderState where
  schemaVersion := s.schemaVersion
  lifecycleEpoch := s.lifecycleEpoch
  pairings := s.pairings
  agentAudit := some s.agentAudit
  queryReplayMarkers := s.queryReplayMarkers
  approvedImages := s.approvedImages
  operations := s.operations
  requests := s.requests.map RequestRecord.wire

end VaultAccess.Model
