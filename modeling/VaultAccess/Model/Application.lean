import VaultAccess.Model.Machine

/-!
# The application's entry points

`src/access/application.rs`: every entry point the sessions, revocations and executions go
through, as a program of atomic actions. A mutex guard is `withLock`: it is dropped on every
way out of its scope.
-/

set_option autoImplicit false

namespace VaultAccess.Model

open VaultAccess.Library

/-- SRCLINE: direct_request.rs:57-64 -/
def DirectRequestError.ofSession : SessionError → DirectRequestError
  | .locked => .locked
  | _ => .unavailable

/-- SRCLINE: application.rs:2373-2377 -/
def AgentRejection.ofSession (e : SessionError) : AgentRejection := .ofDirect (.ofSession e)

/-- `checked_add` on `Duration`, in nanoseconds. -/
def durationAdd (a b : ℕ) : Option ℕ := if a + b < u64Size * 1000000000 then some (a + b) else none

/-- SRCLINE: application.rs:29 -/
def MAX_SESSION : ℕ := 15 * 60 * 1000000000

/-- A supervision that never began. -/
def Supervision.failed : Supervision := ⟨.error .executionFailed, .notStarted⟩

/-- The report after the write of a produced secret. -/
def Supervision.afterWrite (report : Supervision) (written : Except DirectRequestError Unit) :
    Supervision :=
  if !written.isOk && report.outcome.toOption = some .exitedZero then
    { report with outcome := .error .executionFailed }
  else report

namespace Application

/-- A fallible program. -/
abbrev App (ε α : Type) := ExceptT ε (Prog Act Ans) α

/-- One action. -/
def act {ε : Type} (a : Act) : App ε (Ans a) := ExceptT.lift (Prog.perform a)

/-- A program whose failure is a value. -/
def attempt {ε δ α : Type} (x : App ε α) : App δ (Except ε α) := ExceptT.lift x.run

/-- `?` on a value. -/
def ofExcept {ε δ α : Type} (f : ε → δ) : Except ε α → App δ α
  | .ok value => pure value
  | .error e => throw (f e)

/-- `?` on a value, where the errors are of one type. -/
def raise {ε α : Type} (result : Except ε α) : App ε α := ofExcept (fun e => e) result

/-- `ok_or`. -/
def okOr {ε α : Type} (e : ε) : Option α → App ε α
  | some value => pure value
  | none => throw e

/-- The scope of a mutex guard that was acquired. -/
def holding {ε α : Type} (l : Lock) (body : App ε α) : App ε α := do
  let result ← attempt body
  act (.release l)
  raise result

/-- `lock()` and the scope of its guard; `e` is the answer to a poisoned mutex. -/
def withLock {ε α : Type} (l : Lock) (e : ε) (body : App ε α) : App ε α := do
  if ← act (.acquire l none) then holding l body else throw e

/-- `try_lock()` and the scope of its guard. -/
def withTryLock {ε α : Type} (l : Lock) (busy poisoned : ε) (body : App ε α) : App ε α := do
  match ← act (.tryAcquire l) with
  | .acquired => holding l body
  | .busy => throw busy
  | .poisoned => throw poisoned

/-- The scope of a guard that is taken only if the condition holds. -/
def withLockIf {ε α : Type} (condition : Bool) (l : Lock) (e : ε) (body : App ε α) : App ε α :=
  if condition then withLock l e body else body

/-! ## Sessions -/

/-- SRCLINE: application.rs:220-236 -/
def revoke : App SessionError Unit := do
  let authority ← act .readAuthority
  let generation ← okOr .cleanupFailed (checkedAdd authority.generation 1)
  act (.update (.revoked generation))
  let backend ← act (.backend .clear)
  let store ← act (.provider .lock)
  if !backend.isOk || !store.isOk then throw .cleanupFailed
  else act (.update .cleaned)

/-- SRCLINE: application.rs:237-250 -/
def admission : App SessionError Unit := do
  if ← act .loadClosing then
    revoke
    throw .locked
  else
    let authority ← act .readAuthority
    let deadline ← okOr .locked authority.deadline
    let now ← act .now
    if now < deadline && !authority.cleanupFailed then pure ()
    else
      revoke
      throw .locked

/-- SRCLINE: application.rs:273-277 -/
def closeAdmission {ε : Type} : App ε Unit := do
  act (.force .releaseGate)
  act .storeClosing
  act (.release .releaseGate)

/-- The wait for `reaped`, which gives up `executions` meanwhile; whether it timed out.
SRCLINE: application.rs:282-287 -/
def waitReaped {ε : Type} (e : ε) (ids : Option (List String)) : App ε Bool := do
  act (.release .executions)
  okOr e (← act (.reacquire ids))

/-- Some of the executions a wait is for are registered. -/
def stillActive (active : List (String × ActiveExecution)) : Option (List String) → Bool
  | none => !active.isEmpty
  | some ids => ids.any fun id => (lookupKey active id).isSome

/-- SRCLINE: application.rs:278-306 -/
def awaitCleanup (ids : Option (List String)) : App SessionError Unit := do
  if !(← act (.acquire .executions none)) then throw .cleanupFailed
  let active ← act .listExecutions
  let timedOut ← if stillActive active ids then waitReaped .cleanupFailed ids else pure false
  let active ← act .listExecutions
  let uncertain ← if timedOut && stillActive active ids then pure true else act .loadUncertain
  act (.release .executions)
  if uncertain then
    closeAdmission
    throw .cleanupFailed

/-- SRCLINE: application.rs:251-268 -/
def lock : App SessionError Unit := do
  withLock .releaseGate .cleanupFailed (act .publishEpoch)
  let result ← withLock .gate .cleanupFailed (attempt revoke)
  awaitCleanup none
  raise result

/-- SRCLINE: application.rs:269-272 -/
def shutdown : App SessionError Unit := do
  closeAdmission
  lock

/-- SRCLINE: application.rs:924-940 -/
def expireRequests : App SessionError Unit := do
  let now ← act .now
  let authority ← act .readAuthority
  let expiry ← act (.provider (.expireDirect now authority.requestDeadlines))
  if expiry.isOk then act (.update (.retained now)) else throw .cleanupFailed

/-- The rest of `authenticate` after the backend unlocked for `lifetime`. -/
def openSession (started sessionEpoch lifetime : ℕ) : App SessionError Unit := do
  match durationAdd started (min lifetime MAX_SESSION) with
  | none =>
    revoke
    throw .authenticationFailed
  | some deadline =>
    let late ← if ← act .loadClosing then pure true else do pure (decide (deadline ≤ (← act .now)))
    if late then
      revoke
      throw .locked
    else act (.update (.unlocked deadline sessionEpoch))

/-- SRCLINE: application.rs:2322-2358 -/
def authenticate : App SessionError Unit := withLock .gate .cleanupFailed do
  if ← act .loadClosing then throw .locked
  let authority ← act .readAuthority
  if authority.cleanupFailed then throw .cleanupFailed
  revoke
  let started ← act .now
  let sessionEpoch ← act .loadEpoch
  let probe ← act (.backend .probeCompatibility)
  let attempt ← match probe with
    | .ok () => act .unlock
    | .error e => pure (.error e)
  match attempt with
  | .ok lifetime =>
    if lifetime ≠ 0 then openSession started sessionEpoch lifetime
    else
      revoke
      throw .authenticationFailed
  | .error e =>
    revoke
    throw e

/-- SRCLINE: application.rs:1167-1196 -/
def managementRetire (generation epoch deadline : ℕ) : App DirectRequestError Bool := do
  let result ← withTryLock .gate .unavailable .unavailable do
    let authority ← act .readAuthority
    if authority.generation ≠ generation then throw .unauthorized
    if deadline ≤ (← act .now) then throw .unauthorized
    withLock .releaseGate .unavailable do
      if (← act .loadEpoch) ≠ epoch then throw .unauthorized
      if deadline ≤ (← act .now) then throw .unauthorized
      act .publishEpoch
    attempt revoke
  let cleanup ← attempt (awaitCleanup none)
  pure (result.isOk && cleanup.isOk)

/-! ## Agents -/

/-- The answer is `Err(Unavailable)`. -/
def isUnavailable {α : Type} : Except DirectRequestError α → Bool
  | .error .unavailable => true
  | _ => false

section Agents

variable (ownerUid : UInt32)

/-- SRCLINE: application.rs:918-923 -/
def checkOwner {ε : Type} (e : ε) (owner : UInt32) : App ε Unit :=
  if owner ≠ ownerUid then throw e else pure ()

/-- SRCLINE: application.rs:569-573 -/
def tokenLive {ε : Type} : Option ℕ → App ε Bool
  | none => pure true
  | some cell => do pure !(← act (.loadFlag cell))

/-- The token of an agent.
SRCLINE: application.rs:550-568 -/
def agentToken (bindingId : String) : App DirectRequestError ℕ :=
  withLock .agentTokens .unavailable do okOr .unauthorized (← act (.lookupToken bindingId))

/-- SRCLINE: application.rs:574-592 -/
def requestAgentLive (id : String) : App DirectRequestError Unit := do
  let authority ← act .readAuthority
  match authority.requestAgents id with
  | none => pure ()
  | some agent => withLock .agentTokens .unavailable do
    let cell ← okOr .unauthorized (← act (.lookupToken agent))
    if ← act (.loadFlag cell) then throw .unauthorized

/-- The token of the agent is denied; a remote caller is checked first.
SRCLINE: application.rs:461-487 -/
def denyToken (id : String) (authorityBinding : Option (ℕ × ℕ × ℕ)) :
    App DirectRequestError Unit := withLock .releaseGate .unavailable do
  match authorityBinding with
  | none => pure ()
  | some (generation, epoch, deadline) =>
    let authority ← act .readAuthority
    if authority.generation ≠ generation then throw .unauthorized
    if (← act .loadEpoch) ≠ epoch then throw .unauthorized
    if deadline ≤ (← act .now) then throw .unauthorized
  withLock .agentTokens .unavailable do
    let cell ← okOr .notFound (← act (.lookupToken id))
    if authorityBinding.isSome then
      if ← act (.loadFlag cell) then throw .staleRevision
    act (.setFlag cell)

/-- The executions are cancelled one by one; their requests. -/
def cancelAll {ε : Type} : List (String × ActiveExecution) → App ε (List String)
  | [] => pure []
  | (request, execution) :: rest => do
    act (.setFlag execution.cancel)
    pure (request :: (← cancelAll rest))

/-- What a revocation does under the gate.
SRCLINE: application.rs:494-521 -/
def revokeUnderGate (human : UInt32) (id : String) :
    App DirectRequestError (Except DirectRequestError Unit × List String) := do
  let result ← match ← act .unixSeconds with
    | .error e => pure (.error (.ofSession e))
    | .ok now => do pure ((← act (.provider (.revokeAgent human id now))).map fun _ => ())
  let affected ← withLock .executions .unavailable do
    let active ← act .listExecutions
    cancelAll (active.filter (·.2.agentId = some id))
  pure (result, affected)

/-- SRCLINE: application.rs:531-549 -/
def awaitAgentCleanup (ids : List String) : App DirectRequestError Unit := do
  if !(← act (.acquire .executions none)) then throw .unavailable
  let active ← act .listExecutions
  if stillActive active (some ids) then let _ ← waitReaped .unavailable (some ids)
  let active ← act .listExecutions
  let uncertain ← if stillActive active (some ids) then pure true
    else do if ← act .loadUncertain then pure true else act .loadClosing
  act (.release .executions)
  if uncertain then
    closeAdmission
    throw .unavailable

/-- SRCLINE: application.rs:441-530 -/
def revokeAgentChecked (human : UInt32) (id : String) (authorityBinding : Option (ℕ × ℕ × ℕ)) :
    App DirectRequestError Bool := do
  checkOwner ownerUid .unauthorized human
  let (result, affected) ← match authorityBinding with
    | some _ => withTryLock .gate .unavailable .unavailable do
      denyToken id authorityBinding
      revokeUnderGate human id
    | none => do
      denyToken id authorityBinding
      withLock .gate .unavailable (revokeUnderGate human id)
  if !result.isOk then closeAdmission
  let complete ← attempt (awaitAgentCleanup affected)
  raise result
  pure complete.isOk

/-- SRCLINE: application.rs:365-409 -/
def pairAgent (human : UInt32) (input : AgentPairing) : App DirectRequestError Unit := do
  checkOwner ownerUid .unauthorized human
  if ← act .loadClosing then throw .unavailable
  withLock .gate .unavailable do
    if ← act .loadClosing then throw .unavailable
    let now ← ofExcept .ofSession (← act .unixSeconds)
    match ← act (.provider (.pairAgent human input now)) with
    | .ok binding => withLock .releaseGate .unavailable do
      if ← act .loadClosing then throw .unavailable
      withLock .agentTokens .unavailable do
        let cell ← act .newFlag
        act (.insertToken binding.id cell)
    | .error e =>
      if e = .unavailable then closeAdmission
      throw e

end Agents

/-! ## Executions -/

section Executions

variable (E : Externals) (ownerUid : UInt32)

/-- Whether the deadline of the request has passed. -/
def requestOver {ε : Type} (id : String) : App ε Bool := do
  let authority ← act .readAuthority
  match authority.requestDeadlines id with
  | none => pure true
  | some deadline => do pure (decide (deadline ≤ (← act .now)))

/-- SRCLINE: application.rs:1848-1868 -/
def executionLive (id : String) : App DirectRequestError Unit := do
  admission.adapt .ofSession
  requestAgentLive id
  if ← requestOver id then
    let expiry ← attempt expireRequests
    admission.adapt .ofSession
    ofExcept .ofSession expiry
    throw .alreadyDecided

/-- SRCLINE: application.rs:1869-1880 -/
def executionLiveCurrent (id : String) (revocationEpoch : ℕ) : App DirectRequestError Unit := do
  executionLive id
  if (← act .loadEpoch) ≠ revocationEpoch then throw .locked

/-- What an execution is given, as stored.
SRCLINE: provider.rs:748-845 -/
def deliver {ε : Type} (owner : UInt32) (id : String) (claimed : Bool) :
    App ε (Except DirectRequestError (ApprovalBinding × OperationPolicy × List String)) := do
  match ← act .readState with
  | .ok s => pure (executionDelivery E ownerUid s owner id claimed)
  | .error e => pure (.error (.ofProvider e))

/-- SRCLINE: application.rs:1800-1833 -/
def executionAuthority (owner : UInt32) (id : String) (expected : Option ApprovalBinding)
    (claimed : Bool) : App DirectRequestError (ApprovalBinding × OperationPolicy × List String) := do
  executionLive id
  let candidate ← deliver E ownerUid owner id claimed
  executionLive id
  let candidate ← raise candidate
  let authority ← act .readAuthority
  if candidate.1.agentOwner.map (·.bindingId) ≠ authority.requestAgents id then
    throw .invalidRequest
  if expected.any (· ≠ candidate.1) then throw .invalidRequest
  pure candidate

/-- SRCLINE: application.rs:1834-1847 -/
def executionAuthorityCurrent (owner : UInt32) (id : String) (expected : Option ApprovalBinding)
    (revocationEpoch : ℕ) :
    App DirectRequestError (ApprovalBinding × OperationPolicy × List String) := do
  let candidate ← executionAuthority E ownerUid owner id expected false
  executionLiveCurrent id revocationEpoch
  pure candidate

/-- SRCLINE: application.rs:92-101 -/
def liveFast {ε : Type} (e : ApplicationExecution) : App ε Bool := do
  if ← act (.loadFlag e.cancel) then pure false
  else if !(← tokenLive e.agentToken) then pure false
  else if ← act .loadClosing then pure false
  else if (← act .loadEpoch) ≠ e.epoch then pure false
  else do pure (decide ((← act .now) < e.deadline))

/-- `execution_matches`, where a failure counts as `false`. -/
def matchesDurable (binding : ApprovalBinding) : App Unit Bool := do
  match ← act .readState with
  | .ok s => pure (executionMatches s binding)
  | .error _ => pure false

/-- SRCLINE: application.rs:104-115 -/
def live {ε : Type} (e : ApplicationExecution) : App ε Bool := do
  if !(← liveFast e) then pure false
  else match ← attempt (withLock .gate () (matchesDurable e.binding)) with
    | .ok current => pure current
    | .error () => pure false

/-- SRCLINE: application.rs:119-149 -/
def release (e : ApplicationExecution) : App ExecutionError Unit :=
  withLock .gate .cancelled do
    let _ ← (executionAuthority E ownerUid e.owner e.binding.requestId (some e.binding) true).adapt
      fun _ => .cancelled
    (executionLiveCurrent e.binding.requestId e.epoch).adapt fun _ => .cancelled
    withLock .releaseGate .cancelled do
      if !(← liveFast e) then throw .cancelled
      raise (← act (.handOver e))

/-- SRCLINE: application.rs:150-163 -/
def started (e : ApplicationExecution) : App ExecutionError Unit := do
  let result ← withLock .gate .executionFailed (act (.provider (.executionStarted e.binding)))
  if !result.isOk then
    closeAdmission
    throw .executionFailed

/-- One call of the supervisor; its answer is the supervisor's. -/
def control {ε : Type} (e : ApplicationExecution) : ControlCall → App ε Unit
  | .live => do let _ ← live e
  | .remaining => do let _ ← act .now
  | .release => do let _ ← attempt (release E ownerUid e)
  | .started => do let _ ← attempt (started e)

/-- The calls of the supervisor, in turn. -/
def controls {ε : Type} (e : ApplicationExecution) : List ControlCall → App ε Unit
  | [] => pure ()
  | call :: rest => do
    control E ownerUid e call
    controls e rest

/-- What the first section of `run_execution` leaves. -/
structure Claim where
  binding : ApprovalBinding
  deadline : ℕ
  cancel : ℕ
  agentToken : Option ℕ
  candidate : Except DirectRequestError (ApprovalBinding × OperationPolicy × List String)

/-- The claim and its registration.
SRCLINE: application.rs:1428-1443 -/
def claimAndRegister (owner : UInt32) (id : String) (agentId : Option String)
    (token : Option ℕ) : App DirectRequestError (ApprovalBinding × ℕ) := do
  if !(← tokenLive token) then throw .unauthorized
  match ← act (.provider (.claimExecution owner id)) with
  | .error e => throw e
  | .ok binding =>
    let cancel ← act .newFlag
    withLock .executions .unavailable (act (.register id ⟨cancel, agentId⟩))
    pure (binding, cancel)

/-- The token of the request's agent, if it has one. -/
def claimToken : Option String → App DirectRequestError (Option ℕ)
  | none => pure none
  | some agent => do pure (some (← agentToken agent))

/-- The first section of `run_execution`, under the gate.
SRCLINE: application.rs:1394-1452 -/
def claimSection (owner : UInt32) (id : String) (revocationEpoch : ℕ) :
    App DirectRequestError Claim := do
  executionLiveCurrent id revocationEpoch
  let authority ← act .readAuthority
  let deadline ← okOr .alreadyDecided (authority.requestDeadlines id)
  let sessionDeadline ← okOr .locked authority.deadline
  let agentId := authority.requestAgents id
  let token ← claimToken agentId
  let (binding, cancel) ← withLockIf agentId.isSome .releaseGate .unavailable
    (claimAndRegister owner id agentId token)
  let candidate ← attempt
    (executionAuthorityCurrent E ownerUid owner id (some binding) revocationEpoch)
  pure ⟨binding, min deadline sessionDeadline, cancel, token, candidate⟩

/-- SRCLINE: application.rs:1453-1462 -/
def prepare {ε : Type}
    (candidate : Except DirectRequestError (ApprovalBinding × OperationPolicy × List String)) :
    App ε (Except DirectRequestError OperationPolicy) := do
  match candidate with
  | .error e => pure (.error e)
  | .ok (_, policy, argv) =>
    let root ← if policy.ssh.isSome then act (.port .sshMaterialRoot) else pure true
    if !root then pure (.error .unavailable)
    else if ← act (.port (.prepare argv)) then pure (.ok policy)
    else pure (.error .unavailable)

/-- A port that must succeed. -/
def portOk (call : PortCall) : App DirectRequestError Unit := do
  if !(← act (.port call)) then throw .unavailable

/-- A backend call that must succeed. -/
def backendOk (call : BackendCall) : App DirectRequestError Unit := do
  ofExcept .ofSession (← act (.backend call))

/-- SRCLINE: application.rs:1472-1480 -/
def prepareCreate (policy : OperationPolicy) : App DirectRequestError (Option CreateEffect) := do
  match policy.create with
  | none => pure none
  | some effect =>
    portOk .prepareProducer
    backendOk (.createEligible effect)
    pure (some effect)

/-- The credentials of the policy are resolved one by one.
SRCLINE: application.rs:1529-1556 -/
def resolveLogins (id marker : String) (revocationEpoch : ℕ) :
    List LoginCredentialDraft → App DirectRequestError Unit
  | [] => pure ()
  | login :: rest => do
    let binding : CredentialBinding :=
      ⟨login.namespace, login.itemId, login.fieldMappings.map (·.field), marker⟩
    let eligible ← act (.eligible binding)
    executionLiveCurrent id revocationEpoch
    if eligible.toOption ≠ some true then throw .unavailable
    let values ← ofExcept .ofSession (← act (.resolve binding))
    executionLiveCurrent id revocationEpoch
    if values ≠ login.fieldMappings.length then throw .unavailable
    resolveLogins id marker revocationEpoch rest

/-- The rest of the second section, up to the child's environment.
SRCLINE: application.rs:1481-1568 -/
def resolveSecrets (owner : UInt32) (id : String) (binding : ApprovalBinding)
    (revocationEpoch : ℕ) (policy : OperationPolicy) : App DirectRequestError Unit := do
  let authority : App DirectRequestError Unit := do
    let _ ← executionAuthorityCurrent E ownerUid owner id (some binding) revocationEpoch
  authority
  if policy.ssh.isSome then
    portOk .sshMaterialRoot
    portOk .prepareSsh
    authority
  backendOk .probeCompatibility
  executionLiveCurrent id revocationEpoch
  match policy.ssh with
  | none => pure ()
  | some ssh =>
    backendOk (.resolveSsh ssh.credential.itemId)
    authority
    portOk .installKey
    authority
  resolveLogins id ("vw-access=" ++ policy.id) revocationEpoch policy.credentials
  portOk .childEnvironment
  authority

/-- The second section of `run_execution`, under the gate: the effect to create, and whether the
secrets were resolved.
SRCLINE: application.rs:1463-1570 -/
def resolveSection (owner : UInt32) (id : String) (binding : ApprovalBinding)
    (revocationEpoch : ℕ) (preparation : Except DirectRequestError OperationPolicy) :
    App DirectRequestError (Option CreateEffect × Except DirectRequestError OperationPolicy) := do
  match preparation with
  | .error e => pure (none, .error e)
  | .ok policy => match ← attempt (prepareCreate policy) with
    | .error e => pure (none, .error e)
    | .ok effect =>
      let result ← attempt (resolveSecrets E ownerUid owner id binding revocationEpoch policy)
      pure (effect, result.map fun _ => policy)

/-- SRCLINE: application.rs:1580-1600 -/
def superviseControlled {ε : Type} (e : ApplicationExecution)
    (result : Except DirectRequestError OperationPolicy) : App ε Supervision := do
  match result with
  | .error _ => pure .failed
  | .ok policy =>
    let marked ← if policy.ssh.isSome then act (.port .markInUse) else pure true
    if !marked then pure .failed
    else
      let (calls, report) ← act .supervise
      controls E ownerUid e calls
      pure report

/-- The result of the write is recorded.
SRCLINE: application.rs:1664-1693 -/
def recordCreated (e : ApplicationExecution) (effect : CreateEffect) :
    Except WriteStatus String → App DirectRequestError Unit
  | .ok itemId => do
    raise (← act (.provider (.recordWrite e.binding (some itemId) .createdUnverified)))
    if !(← liveFast e) then throw .unavailable
    backendOk (.verifySecret effect itemId)
    raise (← act (.provider (.recordWrite e.binding (some itemId) .verified)))
  | .error status => do
    raise (← act (.provider (.recordWrite e.binding none status)))
    throw .unavailable

/-- The write under the gate.
SRCLINE: application.rs:1627-1693 -/
def writeSection (e : ApplicationExecution) (id : String) (effect : CreateEffect) :
    App DirectRequestError Unit := do
  executionLiveCurrent id e.epoch
  let s ← ofExcept .ofProvider (← act .readState)
  if !executionMatches s e.binding then throw .unavailable
  backendOk (.createEligible effect)
  executionLiveCurrent id e.epoch
  raise (← act (.provider (.beginWrite e.binding)))
  let result ← withLock .releaseGate .unavailable do
    if !(← liveFast e) then throw .unavailable
    act (.createSecret id effect)
  recordCreated e effect result

/-- The write of a produced secret.
SRCLINE: application.rs:1610-1694 -/
def createWrite (e : ApplicationExecution) (id : String) (effect : CreateEffect)
    (report : Supervision) : App DirectRequestError Unit := do
  if report.outcome.toOption ≠ some .exitedZero || report.cleanup ≠ .reaped then
    throw .unavailable
  if !(← live e) then throw .unavailable
  portOk .readProducer
  if !(← act (.port (.selectors (effect.fields.mergeSort (· ≤ ·))))) then throw .invalidRequest
  withLock .gate .unavailable (writeSection e id effect)

/-- SRCLINE: application.rs:1711-1727 -/
def terminalStatus : Except ExecutionError ExecutionOutcome → DirectStatus
  | .error .observationLost => .failed .observationLost
  | .ok .exitedZero => .completed 0
  | .ok .exitedNonZero => .failed .executionNonzero
  | .ok .signaled => .failed .executionSignaled
  | .error _ => .failed .executionUnavailable

/-- SRCLINE: application.rs:1699-1745 -/
def finishSection (e : ApplicationExecution) (report : Supervision) :
    App DirectRequestError DirectStatus := do
  let durableLive ← live e
  withLock .releaseGate .unavailable do
    let _ ← if durableLive then liveFast e else pure false
    if report.cleanup = .uncertain then
      act .storeUncertain
      act .storeClosing
      throw .unavailable
  let terminal := terminalStatus report.outcome
  withLock .gate .unavailable do
    let finished ← act (.provider (.finishExecution e.binding terminal report.cleanup))
    if !finished.isOk then
      act .storeClosing
      let _ ← attempt revoke
      throw .unavailable
    if terminal.isCompleted then pure terminal else throw .unavailable

/-- What `run_execution` does after the claim.
SRCLINE: application.rs:1453-1754 -/
def runClaimed (owner : UInt32) (id : String) (revocationEpoch : ℕ) (claim : Claim) :
    App DirectRequestError DirectStatus := do
  let preparation ← prepare claim.candidate
  let (effect, result) ← withLock .gate .unavailable
    (resolveSection E ownerUid owner id claim.binding revocationEpoch preparation)
  let e : ApplicationExecution :=
    ⟨owner, claim.binding, revocationEpoch, claim.deadline, claim.cancel, claim.agentToken⟩
  let report ← superviseControlled E ownerUid e result
  if report.outcome matches .error .managerUnavailable then closeAdmission
  let report ← match effect with
    | none => pure report
    | some effect => do pure (report.afterWrite (← attempt (createWrite e id effect report)))
  let finish ← attempt (finishSection e report)
  withLock .executions .unavailable (act (.removeExecution id))
  raise finish

/-- SRCLINE: application.rs:1374-1754 -/
def runExecution (owner : UInt32) (id : String) : App DirectRequestError DirectStatus := do
  checkOwner ownerUid .unauthorized owner
  if !(← act (.port .supervisorAvailable)) then
    closeAdmission
    throw .unavailable
  let revocationEpoch ← act .loadEpoch
  if !(← act (.acquire .gate (some revocationEpoch))) then throw .unavailable
  let claim ← holding .gate (claimSection E ownerUid owner id revocationEpoch)
  runClaimed E ownerUid owner id revocationEpoch claim

/-- The execution is cancelled if it is registered; with the position of the look. -/
def cancelActive {ε : Type} (id : String) : App ε (Bool × ℕ) := do
  let (found, position) ← act (.lookupExecution id)
  match found with
  | none => pure (false, position)
  | some execution =>
    act (.setFlag execution.cancel)
    pure (true, position)

/-- The second check of `cancel_execution`, under the gate.
SRCLINE: application.rs:339-358 -/
def cancelUnderGate (owner : UInt32) (id : String) :
    App DirectRequestError (Except DirectRequestError Unit) :=
  withLock .releaseGate .unavailable do
    withLock .executions .unavailable do
      let (found, _) ← cancelActive id
      if found then pure (.ok ()) else act (.provider (.cancelUnclaimedExecution owner id))

/-- It answers with the position of its first look, when that look found no execution.
SRCLINE: application.rs:307-364 -/
def cancelExecution (owner : UInt32) (id : String) : App DirectRequestError (Option ℕ) := do
  checkOwner ownerUid .unauthorized owner
  let (found, position) ← withLock .releaseGate .unavailable do
    withLock .executions .unavailable (cancelActive id)
  if found then
    (awaitCleanup (some [id])).adapt .ofSession
    pure none
  else
    let result ← withLock .gate .unavailable (cancelUnderGate owner id)
    if isUnavailable result then closeAdmission
    raise result
    (awaitCleanup (some [id])).adapt .ofSession
    pure (some position)

end Executions

/-! ## Messages of agents -/

section Messages

variable (E : Externals) (ownerUid : UInt32) (requestLifetime : ℕ)

/-- What `submit_signed` captured before the release gate. -/
structure SubmitWindow where
  token : ℕ
  epoch : ℕ
  sessionDeadline : ℕ
  deadline : ℕ

/-- The guard of a submission.
SRCLINE: application.rs:706-712 -/
def SubmitWindow.live {ε : Type} (window : SubmitWindow) : App ε Bool := do
  if ← act .loadClosing then pure false
  else if !(← tokenLive (some window.token)) then pure false
  else if (← act .loadEpoch) ≠ window.epoch then pure false
  else if window.sessionDeadline ≤ (← act .now) then pure false
  else do pure (decide ((← act .now) < window.deadline))

/-- The admission of a submission, up to its durable commit.
SRCLINE: application.rs:682-728 -/
def commitSigned (uid : UInt32) (groups : List UInt32) (input : SignedSubmission) :
    App AgentRejection (AgentOwner × SubmitWindow × DirectReview) := do
  admission.adapt .ofSession
  expireRequests.adapt .ofSession
  let authority ← act .readAuthority
  let epoch := authority.sessionEpoch
  if (← act .loadEpoch) ≠ epoch then throw .locked
  let s ← ofExcept (fun _ => .unavailable) (← act .readState)
  let owner ← raise (authenticateAgent E ownerUid s uid groups input)
  let token ← (agentToken owner.bindingId).adapt .ofDirect
  if !(← tokenLive (some token)) then throw .unauthorized
  let deadline ← okOr .unavailable (durationAdd (← act .now) requestLifetime)
  let now ← ofExcept .ofSession (← act .unixSeconds)
  let expires ← okOr .unavailable (checkedAdd now (requestLifetime / 1000000000))
  let sessionDeadline ← okOr .locked authority.deadline
  let window : SubmitWindow := ⟨token, epoch, sessionDeadline, deadline⟩
  let review ← withLock .releaseGate .unavailable do
    if !(← tokenLive (some token)) then throw .unauthorized
    if !(← window.live) then throw .locked
    let authorized ← window.live
    raise (← act (.provider (.createSigned owner input now expires authorized)))
  pure (owner, window, review)

/-- The launch of the review and the checks after it.
SRCLINE: application.rs:735-764 -/
def launchSigned (owner : AgentOwner) (window : SubmitWindow) (id : String) :
    App AgentRejection Unit := do
  act (.update (.requestAgent id owner.bindingId))
  act (.update (.requestDeadline id window.deadline))
  withLock .releaseGate .unavailable do
    let launched ← if ← window.live then act (.port (.launch id)) else pure true
    if !launched then
      let failed ← act (.provider (.failDirectLaunch id))
      if !failed.isOk then throw .unavailable
  if (← act .loadEpoch) ≠ window.epoch then revoke.adapt .ofSession
  else
    match ← attempt admission with
    | .ok () => pure ()
    | .error .locked => pure ()
    | .error e => throw (.ofSession e)
    expireRequests.adapt .ofSession

/-- A rejection as unavailable closes admission. -/
def closingIfUnavailable {α : Type} (x : App AgentRejection α) : App AgentRejection α := do
  let result ← attempt x
  match result with
  | .error .unavailable => closeAdmission
  | _ => pure ()
  raise result

/-- SRCLINE: application.rs:669-770 -/
def submitSigned (uid : UInt32) (groups : List UInt32) (input : SignedSubmission) :
    App AgentRejection String := closingIfUnavailable do
  if ← act .loadClosing then throw .unavailable
  withTryLock .gate .busy .unavailable do
    let (owner, window, review) ← commitSigned E ownerUid requestLifetime uid groups input
    launchSigned owner window review.id
    pure review.id

/-- SRCLINE: application.rs:801-813 -/
def refresh : App AgentRejection Unit := do
  let authority ← act .readAuthority
  if authority.deadline.isSome then
    if (← act .loadEpoch) ≠ authority.sessionEpoch then revoke.adapt .ofSession
  match ← attempt admission with
  | .ok () => pure ()
  | .error .locked => pure ()
  | .error e => throw (.ofSession e)
  expireRequests.adapt .ofSession

/-- The status as it is stored. -/
def storedStatus (owner : AgentOwner) (uid : UInt32) (groups : List UInt32) (requestId : String) :
    App AgentRejection DirectStatus := do
  let s ← ofExcept (fun _ => .unavailable) (← act .readState)
  match agentStatus s owner uid groups requestId with
  | .ok status => pure status
  | .error .notFound | .error .unauthorized => throw .unauthorized
  | .error _ => throw .unavailable

/-- Whether a deadline or a revocation crossed the reading of the status.
SRCLINE: application.rs:833-846 -/
def crossed (requestId : String) (status : DirectStatus) : App AgentRejection Bool := do
  let now ← act .now
  let authority ← act .readAuthority
  let sessionExpired := authority.deadline.any fun deadline => decide (deadline ≤ now)
  let requestExpired := (status = .pending || status = .approved) &&
    (authority.requestDeadlines requestId).any fun deadline => decide (deadline ≤ now)
  let sessionRevoked ← if authority.deadline.isSome then do
      pure (decide ((← act .loadEpoch) ≠ authority.sessionEpoch))
    else pure false
  pure (sessionExpired || requestExpired || sessionRevoked)

/-- SRCLINE: protocol.rs:241-262 -/
inductive AgentStatus where
  | pending
  | approved
  | running
  | denied
  | expired
  | completed (exitCode : ℤ)
  | failed (category : DirectFailure)
  deriving DecidableEq, Repr

/-- SRCLINE: application.rs:853-875 -/
def project : DirectStatus → App AgentRejection AgentStatus
  | .pending => pure .pending
  | .approved => pure .approved
  | .running => pure .running
  | .denied => pure .denied
  | .expired => pure .expired
  | .completed exitCode =>
    if 0 ≤ exitCode && exitCode ≤ 255 then pure (.completed exitCode) else throw .unavailable
  | .failed reason => pure (.failed reason)

/-- The loop that takes the final snapshot and projects it, for at most `rounds` rounds.
SRCLINE: application.rs:818-875 -/
def snapshot (owner : AgentOwner) (token : ℕ) (uid : UInt32) (groups : List UInt32)
    (requestId : String) : ℕ → App AgentRejection AgentStatus
  | 0 => do
    act .stall
    throw .unavailable
  | rounds + 1 => do
    let status ← storedStatus owner uid groups requestId
    let answer ← withLock .releaseGate .unavailable do
      if ← crossed requestId status then pure none
      else
        if !(← tokenLive (some token)) then throw .unauthorized
        if ← act .loadClosing then throw .unavailable
        pure (some (← project status))
    match answer with
    | some answer => pure answer
    | none =>
      refresh
      snapshot owner token uid groups requestId rounds

/-- SRCLINE: application.rs:774-881 -/
def signedAgentStatus (uid : UInt32) (groups : List UInt32) (query : SignedStatusQuery)
    (rounds : ℕ) : App AgentRejection AgentStatus := closingIfUnavailable do
  if ← act .loadClosing then throw .unavailable
  withTryLock .gate .busy .unavailable do
    let s ← ofExcept (fun _ => .unavailable) (← act .readState)
    let owner ← raise (authenticateStatusQuery E ownerUid s uid groups query)
    let token ← (agentToken owner.bindingId).adapt .ofDirect
    if !(← tokenLive (some token)) then throw .unauthorized
    if ← act .loadClosing then throw .unavailable
    refresh
    raise (← act (.provider (.consumeStatusQuery owner query)))
    refresh
    snapshot owner token uid groups query.requestId rounds

/-- The operations that no entry point modelled here calls. -/
def elsewhere : Op → Bool
  | .createDirect .. | .expireDirect .. | .decideDirect .. | .failDirectLaunch ..
  | .reconcileWrite .. | .provisionOperation .. | .registerImage .. | .lock => true
  | _ => false

/-- One step of a further entry point; failures are its own. -/
def otherStep : OtherStep → App Unit Unit
  | .admission => do let _ ← attempt admission
  | .expireRequests => do let _ ← attempt expireRequests
  | .provider op => if elsewhere op then do let _ ← act (.provider op) else pure ()
  | .requestDeadline id deadline => act (.update (.requestDeadline id deadline))
  | .closeAdmission => closeAdmission

/-- The steps of a further entry point. -/
def otherSteps : List OtherStep → App Unit Unit
  | [] => pure ()
  | s :: rest => do
    otherStep s
    otherSteps rest

/-- The code a call runs. -/
def code : Call → Prog Act Ans Unit
  | .runExecution owner id => do let _ ← (runExecution E ownerUid owner id).run
  | .lock => do let _ ← lock.run
  | .shutdown => do let _ ← shutdown.run
  | .closeAdmission => do let _ ← (closeAdmission (ε := Unit)).run
  | .cancelExecution owner id => do
    match ← (cancelExecution ownerUid owner id).run with
    | .ok first => Prog.perform (Act.returnsCancelled id first)
    | .error _ => pure ()
  | .revokeAgent human id authorityBinding => do
    let _ ← (revokeAgentChecked ownerUid human id authorityBinding).run
  | .managementRetire generation epoch deadline => do
    let _ ← (managementRetire generation epoch deadline).run
  | .authenticate => do let _ ← authenticate.run
  | .pairAgent human input => do let _ ← (pairAgent ownerUid human input).run
  | .submitSigned uid groups input => do
    match ← (submitSigned E ownerUid requestLifetime uid groups input).run with
    | .ok _ => Prog.perform (Act.returnsAnswer input.bindingId input.nonce)
    | .error _ => pure ()
  | .signedAgentStatus uid groups query rounds => do
    match ← (signedAgentStatus E ownerUid uid groups query rounds).run with
    | .ok _ => Prog.perform (Act.returnsAnswer query.bindingId query.nonce)
    | .error _ => pure ()
  | .other steps => do let _ ← (withLock .gate () (otherSteps steps)).run

end Messages

end Application

/-! ## The machine -/

/-- How a new process starts: what its recovery reads, how its write ends, and its clock. -/
structure Restart where
  env : Env
  outcome : WriteOutcome
  clock : ℕ

/-- A new process over a store, before the first call. `new` itself ends with a call of `lock`,
which is a call like any other here.
SRCLINE: application.rs:173-218 -/
def Shared.fresh (store : Store) (clock : ℕ) (admitted : List (String × String))
    (created : List (String × Option WriteReceipt)) : Shared where
  authority := ⟨store, none, true, 0, 0, fun _ => none, fun _ => none⟩
  closing := false
  revocationEpoch := 0
  cleanupUncertain := false
  executions := []
  agentTokens := (store.durable.pairings.map (·.id)).zipIdx
  flags := store.durable.pairings.map fun b => decide (b.status = .revoked)
  clock := clock
  holder := fun _ => none
  log := []
  admitted := admitted
  created := created

section Machine

variable (E : Externals) (ownerUid : UInt32) (requestLifetime : ℕ)

/-- The application. Time passes, threads end in any way and processes restart at any point. -/
def machine : Machine Act Ans Shared Input ℕ Restart Call where
  perform := performAct E ownerUid
  code := Application.code E ownerUid requestLifetime
  spawn t call m :=
    if m.log.any (·.1 = t) then none
    else some (m.note t (.began call (call.message.any (m.admitted.contains ·))))
  world elapsed m := { m with clock := m.clock + elapsed }
  abandon t m := { m with holder := fun l => if m.holder l = some t then none else m.holder l }
  restart r m := .fresh (step E ownerUid m.authority.store (.restart r.env r.outcome)) r.clock
    m.admitted m.created

/-- No process has served the new store yet. -/
def initialSystem : System Act Ans Shared := .idle (.fresh Store.initial 0 [] [])

/-- The system after a run. -/
def runSystem (events : List (SystemEvent Input ℕ Restart Call)) : System Act Ans Shared :=
  initialSystem.run (machine E ownerUid requestLifetime) events

end Machine

end VaultAccess.Model
