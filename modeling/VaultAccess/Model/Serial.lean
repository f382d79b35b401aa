import VaultAccess.Model.Application

/-!
# Calls one after another

The entry points that open, close and use the session of `src/access/application.rs`, run
one after another in one process. Everything that reads or changes the authority does so
under `gate`; while a call is under way only the clock moves on and another thread may
close admission. The history records what the session owes its deadline to, how the last
cleanups ended, how often the authority was revoked, and what was decided.
-/

set_option autoImplicit false

namespace VaultAccess.Model.Serial

open VaultAccess.Library VaultAccess.Model.Application

/-! ## Entry points -/

/-- SRCLINE: application.rs:36-39 -/
inductive SessionStatus where
  | locked
  | unlocked
  deriving DecidableEq, Repr

/-- SRCLINE: direct_request.rs:424-431 -/
structure PreparedApproval where
  binding : ApprovalBinding
  generation : ℕ
  companionDeadline : Option ℕ
  passwordRequired : Bool

/-- SRCLINE: application.rs:1995-2007 -/
def status : App SessionError SessionStatus := withLock .gate .cleanupFailed do
  let admitted ← attempt admission
  expireRequests
  match admitted with
  | .ok () => pure .unlocked
  | .error .locked => pure .locked
  | .error e => throw e

section Decisions

variable (E : Externals) (ownerUid : UInt32)

/-- The stored state, when it can be read. -/
def stored : App DirectRequestError ProviderState := do
  ofExcept .ofProvider (← act .readState)

/-- SRCLINE: provider.rs:1198-1217 -/
def decisionPolicy (binding : ApprovalBinding) : App DirectRequestError OperationPolicy := do
  let s ← stored
  if (← raise (prepareDirect ownerUid s (bindingHuman ownerUid binding) binding.requestId)) ≠ binding then
    throw .invalidRequest
  let s ← stored
  okOr .staleRevision (s.operations.find? (·.revision = binding.policyDigest))

/-- SRCLINE: provider.rs:677-696 -/
def directReview (owner : UInt32) (id : String) : App DirectRequestError DirectReview := do
  if !validRequestId id then throw .notFound
  let s ← stored
  okOr .notFound ((visibleDirect ownerUid s owner id).map (·.review))

/-- SRCLINE: application.rs:1331-1355 -/
def prepareApproval (owner : UInt32) (id : String) : App DirectRequestError PreparedApproval := do
  checkOwner ownerUid .unauthorized owner
  withLock .gate .unavailable do
    admission.adapt .ofSession
    expireRequests.adapt .ofSession
    requestAgentLive id
    let binding ← raise (prepareDirect ownerUid (← stored) owner id)
    let policy ← decisionPolicy ownerUid binding
    let authority ← act .readAuthority
    pure ⟨binding, authority.generation, none, policy.requirePassword⟩

/-- SRCLINE: application.rs:1260-1290 -/
def companionPrepare (id : String) (review : DirectReview) (generation deadline : ℕ) :
    App DirectRequestError PreparedApproval := withLock .gate .unavailable do
  admission.adapt .ofSession
  expireRequests.adapt .ofSession
  requestAgentLive id
  let authority ← act .readAuthority
  if authority.generation ≠ generation then throw .staleRevision
  if (← directReview ownerUid ownerUid id) ≠ review then throw .staleRevision
  let binding ← raise (prepareDirect ownerUid (← stored) ownerUid id)
  let policy ← decisionPolicy ownerUid binding
  pure ⟨binding, generation, some deadline, policy.requirePassword⟩

/-- What every slow check of an approval is followed by. -/
def stillDeciding (token : Option ℕ) : App DirectRequestError Unit := do
  admission.adapt .ofSession
  expireRequests.adapt .ofSession
  if !(← tokenLive token) then throw .unauthorized

/-- The logins of the policy, one by one.
SRCLINE: application.rs:1935-1952 -/
def eligibleLogins (token : Option ℕ) (marker : String) : List LoginCredentialDraft → App DirectRequestError Unit
  | [] => pure ()
  | login :: rest => do
    let eligible ← act (.eligible
      ⟨login.namespace, login.itemId, login.fieldMappings.map (·.field), marker⟩)
    stillDeciding token
    if eligible.toOption ≠ some true then throw .unavailable
    eligibleLogins token marker rest

/-- SRCLINE: application.rs:1918-1923 -/
def createCheck (token : Option ℕ) : Option CreateEffect → App DirectRequestError Unit
  | none => pure ()
  | some effect => do
    backendOk (.createEligible effect)
    stillDeciding token

/-- SRCLINE: application.rs:1924-1934 -/
def sshCheck (token : Option ℕ) : Option SshOperation → App DirectRequestError Unit
  | none => pure ()
  | some ssh => do
    let eligible ← act (.eligible ⟨none, ssh.credential.itemId, [], ""⟩)
    stillDeciding token
    if eligible.toOption ≠ some true then throw .unavailable

/-- The eligibility checks of an approval.
SRCLINE: application.rs:1909-1953 -/
def approvalChecks (token : Option ℕ) (policy : OperationPolicy) : App DirectRequestError Unit := do
  let probe ← act (.backend .probeCompatibility)
  stillDeciding token
  ofExcept .ofSession probe
  createCheck token policy.create
  sshCheck token policy.ssh
  eligibleLogins token ("vw-access=" ++ policy.id) policy.credentials

/-- The deadlines of the request and of the session are there, and the decision is made; an
agent's request is decided under `release_gate`.
SRCLINE: application.rs:1954-1983 -/
def decide (prepared : PreparedApproval) (approve : Bool) (method : Option ApprovalMethod)
    (token : Option ℕ) : App DirectRequestError (Except DirectRequestError DirectStatus) := do
  let authority ← act .readAuthority
  let _ ← okOr .alreadyDecided (authority.requestDeadlines prepared.binding.requestId)
  let _ ← okOr .locked authority.deadline
  let now ← ofExcept .ofSession (← act .unixSeconds)
  withLockIf prepared.binding.agentOwner.isSome .releaseGate .unavailable do
    if !(← tokenLive token) then throw .unauthorized
    act (.provider (.decideDirect prepared.binding approve method now))

/-- SRCLINE: application.rs:1892-1895 -/
def companionCheck : Option ℕ → App DirectRequestError Unit
  | none => pure ()
  | some deadline => do if deadline ≤ (← act .now) then throw .locked

/-- SRCLINE: application.rs:1895-1907 -/
def commitToken (prepared : PreparedApproval) : App DirectRequestError (Option ℕ) := do
  companionCheck prepared.companionDeadline
  if prepared.binding.agentOwner.isNone then checkOwner ownerUid .unauthorized prepared.binding.requesterUid
  let token ← claimToken (prepared.binding.agentOwner.map (·.bindingId))
  if !(← tokenLive token) then throw .unauthorized else pure token

/-- What `commit_decision` checks before the policy.
SRCLINE: application.rs:1888-1907 -/
def commitChecks (prepared : PreparedApproval) : App DirectRequestError (Option ℕ) := do
  admission.adapt .ofSession
  expireRequests.adapt .ofSession
  let authority ← act .readAuthority
  if authority.generation ≠ prepared.generation then throw .locked
  else commitToken ownerUid prepared

/-- What `commit_decision` does with the answer of the store.
SRCLINE: application.rs:1984-1993 -/
def afterDecision (result : Except DirectRequestError DirectStatus) :
    App DirectRequestError DirectStatus := do
  if isUnavailable result then
    closeAdmission
    let _ ← attempt revoke
  admission.adapt .ofSession
  expireRequests.adapt .ofSession
  raise result

/-- SRCLINE: application.rs:1882-1994 -/
def commitDecision (prepared : PreparedApproval) (approve : Bool) (method : Option ApprovalMethod) :
    App DirectRequestError DirectStatus := withLock .gate .unavailable do
  let token ← commitChecks ownerUid prepared
  let policy ← decisionPolicy ownerUid prepared.binding
  if approve then approvalChecks token policy
  afterDecision (← decide prepared approve method token)

end Decisions

/-! ## One process -/

/-- A decision whose document was renamed into place: the approval that was committed, the times
of the two checks of the write, whether the write succeeded, how often the authority had been
revoked, and the deadlines then. -/
structure Decision where
  prepared : Option PreparedApproval
  binding : ApprovalBinding
  checked : ℕ
  rechecked : ℕ
  accepted : Bool
  revokes : ℕ
  requestDeadline : Option ℕ
  sessionDeadline : Option ℕ

/-- What the history of a process records. -/
structure History where
  /-- When the last unlock that succeeded began, and the lifetime it granted. -/
  granted : Option (ℕ × ℕ)
  /-- Whether the backend and the store have been cleaned since the last revocation began. -/
  cleared : Bool
  locked : Bool
  revokes : ℕ
  decided : List Decision
  /-- The approvals that were prepared, with the number of revocations before each. -/
  prepared : List (PreparedApproval × ℕ)

structure Memory where
  shared : Shared
  history : History
  /-- The approval that is being committed. -/
  deciding : Option PreparedApproval

/-- What happens around an action: the time that passes before it, and while a write is
under way, whether another thread closes admission, and what the action reads. -/
structure Moment where
  elapsed : ℕ
  closes : Bool
  writing : ℕ
  closesWriting : Bool
  input : Input

/-- The clock moves on and another thread may close admission. -/
def pass (elapsed : ℕ) (closes : Bool) (m : Shared) : Shared :=
  { m with clock := m.clock + elapsed, closing := m.closing || closes }

/-- The guard of the write of a decision.
SRCLINE: application.rs:1974-1981 -/
def stillAuthorized (companionDeadline : Option ℕ) (binding : ApprovalBinding) (m : Shared) : Bool :=
  companionDeadline.all (m.clock < ·) && !m.closing &&
    (binding.agentOwner.all fun owner =>
      ((lookupKey m.agentTokens owner.bindingId).map m.flag).all (! ·)) &&
    (m.authority.requestDeadlines binding.requestId).any (m.clock < ·) &&
    m.authority.deadline.any (m.clock < ·)

/-- How a guarded write ends: without authorization before the rename nothing is written,
and without it after the rename the store is poisoned.
SRCLINE: provider_store.rs:409-424 -/
def guardedOutcome (before after : Bool) (outcome : WriteOutcome) : WriteOutcome :=
  if !before then .failedBefore .expiredAccessRequest
  else if outcome = .committed && !after then .uncertain true
  else outcome

/-- What the history records of an action performed on `m` that leaves `m₁`; `checked` is the
time at which it began, and `deciding` the approval being committed. -/
def note (deciding : Option PreparedApproval) (checked : ℕ) (m m₁ : Shared) (history : History) :
    (a : Act) → Ans a → History
  | .unlock, answer =>
    match answer with
    | .ok lifetime => { history with granted := some (m.clock, lifetime) }
    | .error _ => history
  | .backend .clear, answer => { history with cleared := answer.isOk }
  | .provider .lock, answer => { history with locked := answer.isOk }
  | .provider (.decideDirect binding _ _ _), answer =>
    if answer.isOk || m₁.authority.store.durable ≠ m.authority.store.durable then
      { history with
        decided := history.decided ++ [⟨deciding, binding, checked, m.clock, answer.isOk, history.revokes,
          m.authority.requestDeadlines binding.requestId, m.authority.deadline⟩] }
    else history
  | .update (.revoked _), _ =>
    { history with revokes := history.revokes + 1, cleared := false, locked := false }
  | _, _ => history

section Machine

variable (E : Externals) (ownerUid : UInt32)

/-- The memory and the input an action is performed with. -/
def before (a : Act) (moment : Moment) (mem : Memory) : Shared × Input :=
  let m := pass moment.elapsed moment.closes mem.shared
  match a with
  | .provider (.decideDirect binding _ _ _) =>
    let m₁ := pass moment.writing moment.closesWriting m
    let companionDeadline := mem.deciding.bind (·.companionDeadline)
    (m₁, { moment.input with
      outcome := guardedOutcome (stillAuthorized companionDeadline binding m)
        (stillAuthorized companionDeadline binding m₁) moment.input.outcome })
  | _ => (m, moment.input)

/-- One action of the process's one thread. -/
def perform (a : Act) (moment : Moment) (mem : Memory) : Option (Ans a × Memory) :=
  let (m, input) := before a moment mem
  (performAct E ownerUid 0 a input m).map fun (answer, m₁) =>
    (answer, { mem with
      shared := m₁
      history := note mem.deciding (mem.shared.clock + moment.elapsed) m m₁ mem.history a answer })

/-- A step of an operation that was admitted. -/
inductive Step where
  | admission
  | revoke
  | expireRequests
  | provider (op : Op)
  | backend (call : BackendCall)
  | requestDeadline (id : String) (deadline : ℕ)
  | closeAdmission

/-- The cleanups of `revoke` are nobody else's, and a decision is made by `commit_decision`. -/
def ownStep : Op → Bool
  | .lock | .decideDirect .. => false
  | _ => true

def step : Step → App SessionError Unit
  | .admission => Application.admission
  | .revoke => Application.revoke
  | .expireRequests => Application.expireRequests
  | .provider op => if ownStep op then do let _ ← act (.provider op) else pure ()
  | .backend call => do
    match call with
    | .clear => pure ()
    | call => let _ ← act (.backend call)
  | .requestDeadline id deadline => act (.update (.requestDeadline id deadline))
  | .closeAdmission => Application.closeAdmission

/-- The steps of an operation, whatever each of them answers. -/
def steps : List Step → App SessionError Unit
  | [] => pure ()
  | s :: rest => do
    let _ ← attempt (ε := SessionError) (step s)
    steps rest

/-- An operation: it is admitted under the gate, and goes on if it was. -/
def admitted (rest : List Step) : App SessionError Unit := withLock .gate .cleanupFailed do
  Application.admission
  steps rest

inductive Call where
  | authenticate
  | lock
  | shutdown
  | closeAdmission
  | status
  | operation (rest : List Step)
  | prepareApproval (owner : UInt32) (id : String)
  | companionPrepare (id : String) (review : DirectReview) (generation deadline : ℕ)
  | commitDecision (prepared : PreparedApproval) (approve : Bool) (method : Option ApprovalMethod)

/-- What a call answers with. -/
inductive Answer where
  | done
  | refused
  | prepared (approval : PreparedApproval)

/-- The answer of a program. -/
def answer {ε α : Type} (x : App ε α) : Prog Act Ans Answer := do
  match ← x.run with
  | .ok _ => pure .done
  | .error _ => pure .refused

/-- The answer of a preparation. -/
def preparation {ε : Type} (x : App ε PreparedApproval) : Prog Act Ans Answer := do
  match ← x.run with
  | .ok approval => pure (.prepared approval)
  | .error _ => pure .refused

def code : Call → Prog Act Ans Answer
  | .authenticate => answer Application.authenticate
  | .lock => answer Application.lock
  | .shutdown => answer Application.shutdown
  | .closeAdmission => answer (Application.closeAdmission : App SessionError Unit)
  | .status => answer Serial.status
  | .operation rest => answer (admitted rest)
  | .prepareApproval owner id => preparation (Serial.prepareApproval ownerUid owner id)
  | .companionPrepare id review generation deadline =>
    preparation (Serial.companionPrepare ownerUid id review generation deadline)
  | .commitDecision prepared approve method =>
    answer (Serial.commitDecision ownerUid prepared approve method)

/-- The approval a call commits. -/
def Call.deciding : Call → Option PreparedApproval
  | .commitDecision prepared _ _ => some prepared
  | _ => none

/-- A call that runs as far as its moments go: its answer, when it comes to its end, and
the memory. -/
def runCall (call : Call) (moments : List Moment) (mem : Memory) : Option Answer × Memory :=
  (code ownerUid call).runFor (perform E ownerUid) moments
    { mem with deciding := call.deciding }

/-- A prepared approval is kept by its caller. -/
def Memory.keep (mem : Memory) : Answer → Memory
  | .prepared approval =>
    { mem with history := { mem.history with
      prepared := mem.history.prepared ++ [(approval, mem.history.revokes)] } }
  | _ => mem

/-- A process over a store, before its first call. -/
def fresh (store : Store) (clock : ℕ) : Memory where
  shared := .fresh store clock [] []
  history := ⟨none, false, false, 0, [], []⟩
  deciding := none

/-- The memories between the calls of a process. A process starts with the recovery of its store,
after the process before it ended anywhere. -/
inductive Reached : Memory → Prop where
  | start (env : Env) (outcome : WriteOutcome) (clock : ℕ) :
      Reached (fresh (Model.step E ownerUid .initial (.restart env outcome)) clock)
  | call {mem mem' : Memory} {answer : Answer} (h : Reached mem) (call : Call) (moments : List Moment)
      (hrun : runCall E ownerUid call moments mem = (some answer, mem')) : Reached (mem'.keep answer)
  | restart {mem mem' : Memory} {result : Option Answer} (h : Reached mem) (call : Call)
      (moments : List Moment) (hrun : runCall E ownerUid call moments mem = (result, mem')) (env : Env)
      (outcome : WriteOutcome) (clock : ℕ) :
      Reached (fresh (Model.step E ownerUid mem'.shared.authority.store (.restart env outcome)) clock)

end Machine

end VaultAccess.Model.Serial
