import VaultAccess.Model.ProviderState
import VaultAccess.Model.Protocol

/-!
# The provider's operations

`src/access/provider.rs`. Every mutating operation reads the state, decides, and
hands at most one new state to the store; it is modelled by the function from the
state it read to its answer and the state it hands over. What it reads outside
the provider (the disk, the wall clock, random bytes) is in `Env`.
-/

set_option autoImplicit false

namespace VaultAccess.Model

/-- The readings one operation makes. Each request makes at most one clock reading, so the
readings are told apart by the position of the request. -/
structure Env where
  disk : Disk
  /-- `provider_wall_time`, which fails when the clock is before the epoch. -/
  wall : ℕ → Option ℕ
  /-- The operating system's random bytes. -/
  random : Option (Vector UInt8 32)

/-- The answer of an operation and the state it hands to the store, if it writes. -/
structure Handed (α : Type) where
  value : α
  state : Option ProviderState

/-- SRCLINE: direct_request.rs:65-69 -/
def DirectRequestError.ofProvider (_ : ProviderDiagnostic) : DirectRequestError := .unavailable

/-- SRCLINE: ports.rs:158-164 -/
inductive CleanupEvidence where
  | notStarted
  | reaped
  | detached
  | uncertain
  deriving DecidableEq, Repr

/-- SRCLINE: direct_request.rs:23-27 -/
structure DirectSubmission where
  operation : String
  revision : Option String
  values : List String
  deriving DecidableEq, Repr

/-- The answers of the backend's eligibility port; a failure counts as `false`.
SRCLINE: ports.rs:284-309 -/
structure LoginEligibilityVerifier where
  isScopedLoginEligible : String → List LoginField → String → Destination → Bool
  isSshEligible : String → Bool
  isLoginEligible : String → List LoginField → String → Bool

/-! ## Requests of a state -/

/-- `iter().find(|r| r.id == id)`. -/
def ProviderState.request (s : ProviderState) (id : String) : Option RequestRecord :=
  s.requests.find? (·.id = id)

def ProviderState.direct (s : ProviderState) (id : String) : Option DirectRecord :=
  (s.request id).bind (·.direct)

/-- Overwrite the first request that `find` returns. -/
def setFirst (p : RequestRecord → Bool) (new : RequestRecord) : List RequestRecord → List RequestRecord
  | [] => []
  | r :: rest => if p r then new :: rest else r :: setFirst p new rest

def ProviderState.setRequest (s : ProviderState) (id : String) (new : RequestRecord) :
    ProviderState :=
  { s with requests := setFirst (·.id = id) new s.requests }

/-- A fallible update of every request, by position. -/
def updateRequests (f : ℕ → RequestRecord → Except ProviderDiagnostic RequestRecord) :
    ℕ → List RequestRecord → Except ProviderDiagnostic (List RequestRecord)
  | _, [] => .ok []
  | index, r :: rest => do
    let r' ← f index r
    let rest' ← updateRequests f (index + 1) rest
    pure (r' :: rest')

/-- SRCLINE: provider.rs:300-310 -/
def agentCurrent (s : ProviderState) (owner : Option AgentOwner) : Bool :=
  owner.all fun o => s.pairings.any fun b => o.matches b && b.enabledCurrent

section Operations

variable (E : Externals) (ownerUid : UInt32) (env : Env) (s : ProviderState)

/-! ## Lifecycle -/

/-- What invalidation does to one request; claimed executions survive a lock.
SRCLINE: provider_store.rs:439-474 -/
def invalidateRequest (recovered : Bool) (index : ℕ) (r : RequestRecord) :
    Except ProviderDiagnostic RequestRecord :=
  if !r.status.isUnexecuted then .ok r
  else match r.direct with
    | none => .ok { r with status := .invalidated }
    | some d =>
      let executing := d.executionClaimed || r.status = .running
      if !recovered && executing then .ok r
      else match env.wall index with
        | none => .error .invalidState
        | some now =>
          r.transition (if executing then .failed .observationLost else .expired)
            (if recovered then .recovered else .invalidated) now

/-- SRCLINE: provider_store.rs:433-479 -/
def invalidate (recovered : Bool) : Except ProviderDiagnostic (Handed Unit) := do
  let some epoch := checkedAdd s.lifecycleEpoch 1 | .error .persistenceFailure
  let requests ← updateRequests (invalidateRequest env recovered) 0 s.requests
  pure ⟨(), some { s with lifecycleEpoch := epoch, requests := requests }⟩

/-- SRCLINE: provider.rs:92-96 -/
def lock : Except ProviderDiagnostic (Handed Unit) := invalidate env s false

/-- SRCLINE: provider.rs:78-88 -/
def recover : Except ProviderDiagnostic (Handed Unit) := invalidate env s true

/-! ## Agents -/

/-- SRCLINE: provider.rs:104-112 -/
def checkAdministrator (human : UInt32) : Except DirectRequestError Unit :=
  if human ≠ ownerUid then .error .unauthorized else .ok ()

/-- SRCLINE: provider.rs:130-158 -/
def pairAgent (human : UInt32) (input : AgentPairing) (now : ℕ) :
    Except DirectRequestError (Handed AgentBindingView) := do
  checkAdministrator ownerUid human
  let some random := env.random | .error .invalidRequest
  let some binding := AgentBinding.new E input ownerUid random | .error .invalidRequest
  if s.pairings.any fun b => b.publicKey = binding.publicKey ||
      (b.status = .enabled && b.label = binding.label) then
    .error .invalidRequest
  else
    pure ⟨binding.view, some
      { s with
        agentAudit := s.agentAudit ++ [binding.audit human now .paired]
        pairings := s.pairings ++ [binding] }⟩

/-- The first binding with the identifier becomes revoked. -/
def revokeFirst (id : String) : List AgentBinding → List AgentBinding
  | [] => []
  | b :: rest => if b.id = id then { b with status := .revoked } :: rest else b :: revokeFirst id rest

/-- What the revocation of an agent does to one request.
SRCLINE: provider.rs:185-197 -/
def revokeRequest (id : String) (now : ℕ) (_ : ℕ) (r : RequestRecord) :
    Except ProviderDiagnostic RequestRecord :=
  match r.direct with
  | none => .ok r
  | some d =>
    if !d.executionClaimed && d.agentOwner.any (·.bindingId = id) &&
        (d.review.status = .pending || d.review.status = .approved) then
      r.transition .expired .invalidated now
    else .ok r

/-- SRCLINE: provider.rs:159-203 -/
def revokeAgent (human : UInt32) (id : String) (now : ℕ) :
    Except DirectRequestError (Handed AgentBindingView) := do
  checkAdministrator ownerUid human
  let some binding := s.pairings.find? (·.id = id) | .error .notFound
  if binding.status = .enabled then
    let revoked := { binding with status := .revoked }
    let requests ← (updateRequests (revokeRequest id now) 0 s.requests).mapError .ofProvider
    pure ⟨revoked.view, some
      { s with
        pairings := revokeFirst id s.pairings
        agentAudit := s.agentAudit ++ [revoked.audit human now .revoked]
        requests := requests }⟩
  else pure ⟨binding.view, none⟩

/-- The first binding with the identifier that also matches the peer. -/
def bindingForPeer (id : String) (uid : UInt32) (groups : List UInt32) : Option AgentBinding :=
  s.pairings.find? fun b => b.id = id && b.matchesOs uid groups

/-- SRCLINE: provider.rs:233-255 -/
def authenticateAgent (uid : UInt32) (groups : List UInt32) (input : SignedSubmission) :
    Except AgentRejection AgentOwner :=
  if uid = ownerUid then .error .unauthorized
  else match bindingForPeer s input.bindingId uid groups with
    | none => .error .unauthorized
    | some binding => do
      input.verify E binding.publicKey
      pure (AgentOwner.fromBinding binding)

/-- SRCLINE: provider.rs:337-351 -/
def ownedAgentStatus (owner : AgentOwner) (id : String) : Except AgentRejection DirectStatus :=
  match s.direct id with
  | some d => if d.agentOwner = some owner then .ok d.review.status else .error .unauthorized
  | none => .error .unauthorized

/-- SRCLINE: provider.rs:311-336 -/
def authenticateStatusQuery (uid : UInt32) (groups : List UInt32) (query : SignedStatusQuery) :
    Except AgentRejection AgentOwner :=
  if uid = ownerUid then .error .unauthorized
  else match bindingForPeer s query.bindingId uid groups with
    | none => .error .unauthorized
    | some binding => do
      query.verify E binding.publicKey
      let owner := AgentOwner.fromBinding binding
      let _ ← ownedAgentStatus s owner query.requestId
      pure owner

/-- A marker that a query or a submission has used. -/
def ProviderState.replayed (marker : String) : Bool :=
  s.queryReplayMarkers.contains marker ||
    s.requests.any fun r => r.direct.any fun d => d.replayDigest = some marker

/-- SRCLINE: provider.rs:352-390 -/
def consumeStatusQuery (owner : AgentOwner) (query : SignedStatusQuery) :
    Except AgentRejection (Handed Unit) := do
  if query.bindingId ≠ owner.bindingId || !agentCurrent s (some owner) then .error .unauthorized
  let _ ← ownedAgentStatus s owner query.requestId
  let marker ← query.replayDigest E
  if s.replayed marker then .error .replay
  else pure ⟨(), some { s with queryReplayMarkers := s.queryReplayMarkers ++ [marker] }⟩

/-! ## Submissions -/

/-- The record of a new request.
SRCLINE: provider.rs:564-594 -/
def newRecord (uid : UInt32) (agentOwner : Option AgentOwner) (replayDigest : Option String)
    (review : DirectReview) (now epoch : ℕ) : DirectRecord :=
  let direct : DirectRecord :=
    { ownerUid := uid, agentOwner := agentOwner, replayDigest := replayDigest,
      createdAtUnixSeconds := now, lifecycleEpoch := epoch, review := review, bindingDigest := "",
      approval := none, executionClaimed := false, audit := [],
      historyVersion := HISTORY_VERSION, writeReceipt := none }
  let direct := direct.seal E
  { direct with audit := [HistoryEvent.snapshot direct 0 now .submitted (some .pending)] }

/-- The review an owner's request is shown with. -/
def ownedReview (agentOwner : Option AgentOwner) (review : DirectReview) : DirectReview :=
  match agentOwner with
  | some owner => { review with requester := owner.reviewRequester }
  | none => review

/-- `authorized` is the answer of `still_authorized` before the identifier is drawn.
SRCLINE: provider.rs:507-612 -/
def createOwned (uid : UInt32) (agentOwner : Option AgentOwner) (replayDigest : Option String)
    (input : DirectSubmission) (now expires : ℕ) (authorized : Bool) :
    Except DirectRequestError (Handed DirectReview) := do
  if !validOperationId input.operation || input.revision.any (!validSha256 ·) then
    .error .invalidRequest
  if !agentCurrent s agentOwner then .error .unauthorized
  let some policy := s.operations.find? (·.id = input.operation) | .error .invalidRequest
  if input.revision.any (· ≠ policy.revision) then .error .staleRevision
  let some args := policy.normalizeArgs input.values | .error .invalidRequest
  if !authorized then .error .locked
  let some random := env.random | .error .unavailable
  let id := newRandom random
  let review := ownedReview agentOwner (policy.directReview E id args expires)
  let direct := newRecord E uid agentOwner replayDigest review now s.lifecycleEpoch
  pure ⟨review, some { s with requests := s.requests ++ [⟨id, .pending, some direct⟩] }⟩

/-- SRCLINE: provider.rs:469-487 -/
def createDirect (owner : UInt32) (input : DirectSubmission) (now expires : ℕ)
    (authorized : Bool) : Except DirectRequestError (Handed DirectReview) :=
  createOwned E env s owner none none input now expires authorized

/-- SRCLINE: provider.rs:257-298 -/
def createSigned (owner : AgentOwner) (input : SignedSubmission) (now expires : ℕ)
    (authorized : Bool) : Except AgentRejection (Handed DirectReview) := do
  if input.bindingId ≠ owner.bindingId then .error .unauthorized
  let marker ← input.replayDigest E
  if s.replayed marker then .error .replay
  else (createOwned E env s owner.uid (some owner) (some marker)
    ⟨input.operationId, some input.expectedPolicyRevision, input.args⟩ now expires
    authorized).mapError .ofDirect

/-! ## Expiry and launch failure -/

/-- Whether expiry changes a request.
SRCLINE: provider.rs:622-635 -/
def expires (now : ℕ) (deadlines : String → Option ℕ) (r : RequestRecord) : Bool :=
  r.direct.any (!·.executionClaimed) && (r.status = .pending || r.status = .approved) &&
    (deadlines r.id).all fun deadline => decide (deadline ≤ now)

/-- What expiry does to one request. -/
def expireRequest (now : ℕ) (deadlines : String → Option ℕ) (index : ℕ) (r : RequestRecord) :
    Except ProviderDiagnostic RequestRecord :=
  if expires now deadlines r then
    match env.wall index with
    | none => .error .invalidState
    | some wall => r.transition .expired .expired wall
  else .ok r

/-- SRCLINE: provider.rs:613-652 -/
def expireDirect (now : ℕ) (deadlines : String → Option ℕ) :
    Except ProviderDiagnostic (Handed Unit) := do
  let requests ← updateRequests (expireRequest env now deadlines) 0 s.requests
  pure ⟨(), if s.requests.any (expires now deadlines) then some { s with requests := requests }
    else none⟩

/-- SRCLINE: provider.rs:717-735 -/
def failDirectLaunch (id : String) : Except ProviderDiagnostic (Handed Unit) :=
  match s.requests.find? (fun r => r.id = id && r.status = .pending) with
  | none => .ok ⟨(), none⟩
  | some r => match env.wall 0 with
    | none => .error .invalidState
    | some now => do
      let r' ← r.transition .expired .reviewUnavailable now
      let requests := setFirst (fun q => q.id = id && q.status = .pending) r' s.requests
      pure ⟨(), some { s with requests := requests }⟩

/-! ## Decisions -/

/-- The direct record of a request its owner may see. -/
def visibleDirect (human : UInt32) (id : String) : Option DirectRecord :=
  (s.direct id).filter fun d => d.humanVisible human ownerUid

/-- SRCLINE: provider.rs:737-775 -/
def prepareDirect (owner : UInt32) (id : String) : Except DirectRequestError ApprovalBinding := do
  let some direct := visibleDirect ownerUid s owner id | .error .notFound
  if !agentCurrent s direct.agentOwner then .error .unauthorized
  if direct.review.status ≠ .pending then .error .alreadyDecided
  if direct.lifecycleEpoch ≠ s.lifecycleEpoch then .error .unavailable
  let some policy := s.operations.find? (·.id = direct.review.operation) | .error .staleRevision
  if policy.revision ≠ direct.review.policyDigest then .error .staleRevision
  if !policy.validatesArgs direct.review.arguments then .error .invalidRequest
  pure direct.approvalBinding

/-- The human who decides about a binding: agents' requests are the provider owner's. -/
def bindingHuman (binding : ApprovalBinding) : UInt32 :=
  if binding.agentOwner.isSome then ownerUid else binding.requesterUid

/-- The approval method is set on the last event. -/
def setMethod (method : ApprovalMethod) : List HistoryEvent → List HistoryEvent
  | [] => []
  | [e] => [{ e with approval := some method }]
  | e :: rest => e :: setMethod method rest

def DirectRecord.withMethod (d : DirectRecord) (method : ApprovalMethod) : DirectRecord :=
  { d with audit := setMethod method d.audit }

/-- SRCLINE: provider.rs:1217-1265 -/
def decideDirect (binding : ApprovalBinding) (approve : Bool) (method : Option ApprovalMethod)
    (now : ℕ) : Except DirectRequestError (Handed DirectStatus) := do
  let prepared ← prepareDirect ownerUid s (bindingHuman ownerUid binding) binding.requestId
  if prepared ≠ binding then .error .invalidRequest
  let some request := s.request binding.requestId | .error .notFound
  let next : DirectStatus := if approve then .approved else .denied
  if method.isSome && !approve then .error .invalidRequest
  let request ← (request.transition next (if approve then .approved else .denied) now).mapError
    .ofProvider
  let direct := match method with
    | some m => request.direct.map (·.withMethod m)
    | none => request.direct
  pure ⟨next, some (s.setRequest binding.requestId { request with direct := direct })⟩

/-! ## Executions -/

/-- SRCLINE: provider.rs:851-879 -/
def cancelUnclaimedExecution (owner : UInt32) (id : String) :
    Except DirectRequestError (Handed Unit) := do
  let some request := s.request id | .error .notFound
  let some direct := visibleDirect ownerUid s owner id | .error .notFound
  if direct.review.status ≠ .approved || direct.executionClaimed then .error .alreadyDecided
  let some now := env.wall 0 | .error .unavailable
  let request ← (request.transition .expired .executionUnavailable now).mapError .ofProvider
  pure ⟨(), some (s.setRequest id request)⟩

/-- SRCLINE: provider.rs:1043-1087 -/
def claimExecution (owner : UInt32) (id : String) :
    Except DirectRequestError (Handed ApprovalBinding) := do
  if !agentCurrent s ((s.direct id).bind (·.agentOwner)) then .error .unauthorized
  let some request := s.request id | .error .notFound
  let some direct := visibleDirect ownerUid s owner id | .error .notFound
  if request.status ≠ .approved || direct.review.status ≠ .approved || direct.executionClaimed then
    .error .alreadyDecided
  let binding := direct.approvalBinding
  if direct.lifecycleEpoch ≠ s.lifecycleEpoch || direct.approval ≠ some binding then
    .error .unavailable
  pure ⟨binding, some (s.setRequest id
    { request with direct := some { direct with executionClaimed := true } })⟩

/-- SRCLINE: provider.rs:1089-1113 -/
def executionMatches (binding : ApprovalBinding) : Bool :=
  agentCurrent s binding.agentOwner && s.lifecycleEpoch = binding.lifecycleEpoch &&
    s.operations.any (·.revision = binding.policyDigest) &&
    s.requests.any fun r => r.direct.any fun d =>
      d.executionClaimed && d.approval = some binding &&
        (d.review.status = .approved || d.review.status = .running)

/-- What an execution of the request is given: its binding, its policy and its command line.
SRCLINE: provider.rs:784-845 -/
def executionDelivery (owner : UInt32) (id : String) (claimed : Bool) :
    Except DirectRequestError (ApprovalBinding × OperationPolicy × List String) := do
  let some direct := visibleDirect ownerUid s owner id | .error .notFound
  if !agentCurrent s direct.agentOwner then .error .unauthorized
  if (claimed && !direct.executionClaimed) || !(direct.review.status = .approved ||
      (claimed && direct.review.status = .running)) then
    .error .alreadyDecided
  let binding := direct.approvalBinding
  if direct.lifecycleEpoch ≠ s.lifecycleEpoch || direct.approval ≠ some binding ||
      direct.review.oneTime ≠ ONE_TIME then
    .error .unavailable
  let some policy := s.operations.find? (·.id = direct.review.operation) | .error .staleRevision
  if policy.revision ≠ direct.review.policyDigest then .error .staleRevision
  let some arguments := policy.normalizeArgs direct.review.arguments | .error .invalidRequest
  let expected := { policy.directReview E id arguments direct.review.expiresAtUnixSeconds with
    status := direct.review.status, requester := direct.review.requester }
  if arguments ≠ direct.review.arguments || expected ≠ direct.review then .error .invalidRequest
  pure (binding, policy, policy.id :: arguments)

/-- SRCLINE: provider.rs:393-419 -/
def agentStatus (owner : AgentOwner) (uid : UInt32) (groups : List UInt32) (id : String) :
    Except DirectRequestError DirectStatus :=
  if !s.pairings.any (fun b => owner.matches b && b.matchesOs uid groups) then .error .unauthorized
  else match s.direct id with
    | some d => if d.agentOwner = some owner then .ok d.review.status else .error .notFound
    | none => .error .notFound

/-- SRCLINE: provider.rs:1114-1145 -/
def executionStarted (binding : ApprovalBinding) : Except DirectRequestError (Handed Unit) := do
  let some request := s.request binding.requestId | .error .notFound
  let some direct := request.direct | .error .notFound
  if !direct.executionClaimed || direct.approval ≠ some binding ||
      direct.review.status ≠ .approved then
    .error .unavailable
  let some now := env.wall 0 | .error .unavailable
  let request ← (request.transition .running .approved now).mapError .ofProvider
  pure ⟨(), some (s.setRequest binding.requestId request)⟩

def DirectStatus.isCompleted : DirectStatus → Bool
  | completed _ => true
  | _ => false

def DirectStatus.isFailed : DirectStatus → Bool
  | failed _ => true
  | _ => false

/-- SRCLINE: provider.rs:1146-1197 -/
def finishExecution (binding : ApprovalBinding) (status : DirectStatus) (cleanup : CleanupEvidence) :
    Except DirectRequestError (Handed Unit) := do
  if cleanup = .uncertain || !(status.isCompleted || status.isFailed) then .error .unavailable
  let some request := s.request binding.requestId | .error .notFound
  let some direct := request.direct | .error .notFound
  if !direct.executionClaimed || direct.approval ≠ some binding ||
      !(direct.review.status = .approved || direct.review.status = .running) ||
      (direct.review.status = .running && cleanup = .notStarted) ||
      (status.isCompleted && (!(cleanup = .reaped || cleanup = .detached) ||
        direct.review.status ≠ .running)) then
    .error .unavailable
  let some now := env.wall 0 | .error .unavailable
  let decision : DecisionOutcome := if status.isCompleted then .approved else .executionUnavailable
  let request ← (request.transition status decision now).mapError .ofProvider
  pure ⟨(), some (s.setRequest binding.requestId request)⟩

/-! ## Secret writes -/

/-- `trim_end_matches('/')`. -/
def trimSlashes (server : String) : String :=
  String.ofList (server.toList.reverse.dropWhile (· = '/')).reverse

/-- Two creation effects write to one place. -/
def CreateEffect.sameDestination (c effect : CreateEffect) : Bool :=
  trimSlashes c.server = trimSlashes effect.server && c.destination = effect.destination

/-- SRCLINE: provider.rs:955-1009 -/
def beginWrite (binding : ApprovalBinding) : Except DirectRequestError (Handed Unit) := do
  let some request := s.request binding.requestId | .error .notFound
  let some direct := request.direct | .error .notFound
  if !direct.executionClaimed || direct.review.status ≠ .running ||
      direct.approval ≠ some binding || direct.writeReceipt.isSome then
    .error .alreadyDecided
  let some effect := direct.review.create | .error .invalidRequest
  if (s.requests.filter (·.id ≠ binding.requestId)).any fun r => r.direct.any fun d =>
      d.writeReceipt.isSome && d.review.create.any (·.sameDestination effect) then
    .error .alreadyDecided
  else
    pure ⟨(), some (s.setRequest binding.requestId { request with direct := some { direct with
      writeReceipt := some ⟨binding.requestId, none, .uncertain⟩ } })⟩

/-- SRCLINE: provider.rs:1010-1040 -/
def recordWrite (binding : ApprovalBinding) (item : Option String) (status : WriteStatus) :
    Except DirectRequestError (Handed Unit) := do
  let some request := s.request binding.requestId | .error .notFound
  let some direct := request.direct | .error .notFound
  let some receipt := direct.writeReceipt | .error .invalidRequest
  if receipt.itemId.any fun old => some old ≠ item then .error .invalidRequest
  else
    pure ⟨(), some (s.setRequest binding.requestId { request with direct := some { direct with
      writeReceipt := some { receipt with itemId := item, status := status } } })⟩

/-- The receipt after an owner named the item. -/
def WriteReceipt.reconciled (receipt : WriteReceipt) (itemId : String) : WriteReceipt :=
  { receipt with
    itemId := some itemId
    status := if receipt.status = .verified then .verified else .createdUnverified }

/-- SRCLINE: provider.rs:907-952 -/
def reconcileWrite (id itemId : String) : Except DirectRequestError (Handed WriteReceipt) := do
  let some request := s.request id | .error .notFound
  let some direct := request.direct | .error .notFound
  if !direct.review.status.isTerminal then .error .invalidRequest
  let some receipt := direct.writeReceipt | .error .invalidRequest
  if receipt.itemId.any (· ≠ itemId) then .error .invalidRequest
  if direct.audit.getLast?.any (·.outcome = .reconciled) then return ⟨receipt, none⟩
  let receipt := receipt.reconciled itemId
  let direct := { direct with writeReceipt := some receipt }
  let some now := env.wall 0 | .error .unavailable
  let event := HistoryEvent.snapshot direct direct.audit.length now .reconciled
    (some direct.review.status)
  pure ⟨receipt, some (s.setRequest id
    { request with direct := some { direct with audit := direct.audit ++ [event] } })⟩

/-! ## Provisioning -/

/-- Every credential of the policy is eligible.
SRCLINE: provider.rs:1313-1338 -/
def eligible (verifier : LoginEligibilityVerifier) (policy : OperationPolicy) : Bool :=
  policy.ssh.all (fun ssh => verifier.isSshEligible ssh.credential.itemId) &&
    policy.credentials.all fun c =>
      let marker := "vw-access=" ++ policy.id
      let fields := c.fieldMappings.map (·.field)
      match c.namespace with
      | some d => verifier.isScopedLoginEligible c.itemId fields marker d
      | none => verifier.isLoginEligible c.itemId fields marker

/-- Overwrite the policy with the same identifier, else append.
SRCLINE: provider_store.rs:494-503 -/
def upsertOperation (operation : OperationPolicy) : List OperationPolicy → List OperationPolicy
  | [] => [operation]
  | p :: rest => if p.id = operation.id then operation :: rest else p :: upsertOperation operation rest

/-- `authorized` is the answer of `still_authorized` before the store is called.
SRCLINE: provider.rs:1288-1347 -/
def provisionOperation (draft : OperationPolicyDraft) (verifier : LoginEligibilityVerifier)
    (createOnly authorized : Bool) : Except ProviderDiagnostic (Handed String) := do
  if createOnly && s.operations.any (·.id = draft.id) then .error .conflict
  let some image := s.approvedImages.find? (·.id = draft.imageId) | .error .invalidOperationPolicy
  let some policy := OperationPolicy.fromDraft E env.disk draft image |
    .error .invalidOperationPolicy
  if !eligible verifier policy then .error .credentialIneligible
  if !authorized then .error .credentialIneligible
  pure ⟨policy.revision, some { s with operations := upsertOperation policy s.operations }⟩

/-- `verified` is the answer of the image verifier.
SRCLINE: provider.rs:1349-1379 -/
def registerImage (input : ApprovedImage) (verified : Except ProviderDiagnostic Unit) :
    Except ProviderDiagnostic (Handed ApprovedImage) := do
  if s.approvedImages.any (·.id = input.id) then .error .conflict
  let some image := ApprovedImage.fromRegistration E env.disk input | .error .invalidOperationPolicy
  verified
  pure ⟨image, some { s with approvedImages := s.approvedImages ++ [image] }⟩

end Operations

end VaultAccess.Model
