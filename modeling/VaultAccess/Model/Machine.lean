import VaultAccess.Library.Programs
import VaultAccess.Model.Store

/-!
# The memory the application's threads share

`ProviderApplication` of `src/access/application.rs`: the authority behind `gate`, the
atomics, the execution and token tables, the clock, and who holds which mutex. An action
is one step no other thread can see the middle of: a mutex operation, one atomic load or
store, one call of the provider or the backend under the gate, one table access. The
`log` is a history of the process that no action reads.
-/

set_option autoImplicit false

namespace VaultAccess.Model

open VaultAccess.Library

/-- SRCLINE: ports.rs:341-349 -/
inductive SessionError where
  | locked
  | incompatible
  | authenticationFailed
  | backendUnavailable
  | cleanupFailed
  | invalidRequest
  deriving DecidableEq, Repr

/-- SRCLINE: ports.rs:241-255 -/
inductive ExecutionError where
  | invalidImage
  | unsafePath
  | unsafeSource
  | digestMismatch
  | unsupportedImage
  | unavailable
  | invalidArguments
  | executionFailed
  | cancelled
  | managerUnavailable
  | cleanupUncertain
  | observationLost
  | unitCollision
  deriving DecidableEq, Repr

/-- SRCLINE: ports.rs:51-55 -/
inductive ExecutionOutcome where
  | exitedZero
  | exitedNonZero
  | signaled
  deriving DecidableEq, Repr

/-- SRCLINE: ports.rs:165-169 -/
structure Supervision where
  outcome : Except ExecutionError ExecutionOutcome
  cleanup : CleanupEvidence

/-- What a supervisor may ask of the execution it controls.
SRCLINE: ports.rs:170-180 -/
inductive ControlCall where
  | live
  | remaining
  | release
  | started
  deriving DecidableEq, Repr

inductive Lock where
  | gate
  | releaseGate
  | executions
  | agentTokens
  deriving DecidableEq, Repr

/-- `cancel` is the number of a shared flag.
SRCLINE: application.rs:79-82 -/
structure ActiveExecution where
  cancel : ℕ
  agentId : Option String
  deriving DecidableEq, Repr

/-- SRCLINE: application.rs:53-62 -/
structure Authority where
  store : Store
  deadline : Option ℕ
  cleanupFailed : Bool
  generation : ℕ
  sessionEpoch : ℕ
  requestDeadlines : String → Option ℕ
  requestAgents : String → Option String

/-- SRCLINE: application.rs:83-91 -/
structure ApplicationExecution where
  owner : UInt32
  binding : ApprovalBinding
  epoch : ℕ
  deadline : ℕ
  cancel : ℕ
  agentToken : Option ℕ

/-- The entry points, each run by a thread of its own. `other` is any further entry point, given
by the steps it makes under the gate. -/
inductive OtherStep where
  | admission
  | expireRequests
  | provider (op : Op)
  | requestDeadline (id : String) (deadline : ℕ)
  | closeAdmission

inductive Call where
  | runExecution (owner : UInt32) (id : String)
  | lock
  | shutdown
  | closeAdmission
  | cancelExecution (owner : UInt32) (id : String)
  | revokeAgent (human : UInt32) (id : String) (authorityBinding : Option (ℕ × ℕ × ℕ))
  | managementRetire (generation epoch deadline : ℕ)
  | authenticate
  | pairAgent (human : UInt32) (input : AgentPairing)
  | submitSigned (uid : UInt32) (groups : List UInt32) (input : SignedSubmission)
  | signedAgentStatus (uid : UInt32) (groups : List UInt32) (query : SignedStatusQuery) (rounds : ℕ)
  | other (steps : List OtherStep)

/-- The binding and the nonce of an agent's message. -/
def Call.message : Call → Option (String × String)
  | submitSigned _ _ input => some (input.bindingId, input.nonce)
  | signedAgentStatus _ _ query _ => some (query.bindingId, query.nonce)
  | _ => none

/-- The message an operation admits. -/
def Op.message : Op → Option (String × String)
  | createSigned _ input _ _ _ => some (input.bindingId, input.nonce)
  | consumeStatusQuery _ query => some (query.bindingId, query.nonce)
  | _ => none

/-- The operations every call may make before its own: expiry, and the lock that ends a session. -/
def Op.housekeeping : Op → Bool
  | expireDirect .. | lock => true
  | _ => false

/-- What the history of a process records. -/
inductive Mark where
  /-- A call begins; `seen` tells that its message was admitted before. -/
  | began (call : Call) (seen : Bool)
  /-- `run_execution` gets the gate to claim: the epoch it captured, the current one, the
  session's, and whether the session is admitted. -/
  | entered (captured current session : ℕ) (admitted : Bool)
  | published (epoch : ℕ)
  | closed
  | set (cell : ℕ)
  | authenticated
  /-- A reading of the clock, and whether both gates were held. -/
  | read (now : ℕ) (exclusive : Bool)
  /-- A provider operation: whether it handed a state to the store, and whether it succeeded. -/
  | operated (op : Op) (handed ok : Bool)
  | looked (id : String) (found : Bool)
  /-- An execution is registered: its flag, and at this moment the token of the request's agent
  and the earlier of the two deadlines. -/
  | registered (id : String) (cell : ℕ) (token deadline : Option ℕ)
  | handedOver (execution : ApplicationExecution) (now : ℕ)
  /-- `cancel_execution` returns `Ok`; `first` is the position of its first look, when that look
  found no execution. -/
  | cancelled (id : String) (first : Option ℕ)
  | answered (bindingId nonce : String)

/-- The memory. The flags are the `Arc<AtomicBool>`s, numbered in the order they were made;
`admitted` and `created` outlive the process: the messages that were admitted, and the requests
the backend was asked to create a secret for, with the receipt stored at that moment. -/
structure Shared where
  authority : Authority
  closing : Bool
  revocationEpoch : ℕ
  cleanupUncertain : Bool
  executions : List (String × ActiveExecution)
  agentTokens : List (String × ℕ)
  flags : List Bool
  clock : ℕ
  holder : Lock → Option ℕ
  log : List (ℕ × Mark)
  admitted : List (String × String)
  created : List (String × Option WriteReceipt)

/-- `HashMap::get`. -/
def lookupKey {α : Type} (table : List (String × α)) (id : String) : Option α :=
  (table.find? (·.1 = id)).map (·.2)

/-- `HashMap::insert`. -/
def insertKey {α : Type} (table : List (String × α)) (id : String) (value : α) :
    List (String × α) := table.filter (·.1 ≠ id) ++ [(id, value)]

/-- `HashMap::remove`. -/
def removeKey {α : Type} (table : List (String × α)) (id : String) : List (String × α) :=
  table.filter (·.1 ≠ id)

/-- The writes the code makes to fields of the authority. -/
inductive AuthorityUpdate where
  | revoked (generation : ℕ)
  | cleaned
  | retained (now : ℕ)
  | requestDeadline (id : String) (deadline : ℕ)
  | requestAgent (id bindingId : String)
  | unlocked (deadline epoch : ℕ)

def AuthorityUpdate.apply (a : Authority) : AuthorityUpdate → Authority
  | revoked generation =>
    { a with generation := generation, deadline := none, cleanupFailed := true
             requestDeadlines := fun _ => none }
  | cleaned => { a with cleanupFailed := false }
  | retained now =>
    { a with requestDeadlines := fun id => (a.requestDeadlines id).filter (now < ·) }
  | requestDeadline id deadline =>
    { a with requestDeadlines := Function.update a.requestDeadlines id (some deadline) }
  | requestAgent id bindingId =>
    { a with requestAgents := Function.update a.requestAgents id (some bindingId) }
  | unlocked deadline epoch => { a with deadline := some deadline, sessionEpoch := epoch }

/-- SRCLINE: ports.rs:372-377 -/
structure CredentialBinding where
  «namespace» : Option Destination
  immutableItemId : String
  fields : List LoginField
  marker : String

/-- Calls of the backend that answer with nothing but success. -/
inductive BackendCall where
  | clear
  | probeCompatibility
  | createEligible (effect : CreateEffect)
  | resolveSsh (itemId : String)
  | verifySecret (effect : CreateEffect) (itemId : String)

/-- Calls of the other ports. -/
inductive PortCall where
  | supervisorAvailable
  | sshMaterialRoot
  | prepare (argv : List String)
  | prepareProducer
  | prepareSsh
  | installKey
  | childEnvironment
  | markInUse
  | readProducer
  | selectors (fields : List String)
  | launch (id : String)

inductive Act where
  /-- `lock()`; an entry to claim carries the epoch captured before it. -/
  | acquire (l : Lock) (entry : Option ℕ)
  | tryAcquire (l : Lock)
  /-- `lock().unwrap_or_else(into_inner)`. -/
  | force (l : Lock)
  /-- The end of a wait for `reaped`: none of the executions is left, or the time is over. -/
  | reacquire (ids : Option (List String))
  | release (l : Lock)
  | loadClosing
  | storeClosing
  | loadEpoch
  | publishEpoch
  | loadUncertain
  | storeUncertain
  | newFlag
  | loadFlag (cell : ℕ)
  | setFlag (cell : ℕ)
  | now
  | unixSeconds
  | readAuthority
  | update (u : AuthorityUpdate)
  | readState
  | provider (op : Op)
  | backend (call : BackendCall)
  | eligible (binding : CredentialBinding)
  | resolve (binding : CredentialBinding)
  | unlock
  | port (call : PortCall)
  | lookupToken (id : String)
  | insertToken (id : String) (cell : ℕ)
  | lookupExecution (id : String)
  | listExecutions
  | register (id : String) (execution : ActiveExecution)
  | removeExecution (id : String)
  | supervise
  | handOver (execution : ApplicationExecution)
  | createSecret (id : String) (effect : CreateEffect)
  /-- The call returns `Ok`: no step of the code, only of the history. -/
  | returnsCancelled (id : String) (first : Option ℕ)
  | returnsAnswer (bindingId nonce : String)
  /-- Nothing ever happens. -/
  | stall

/-- What a `try_lock` finds. -/
inductive TryLock where
  | acquired
  | busy
  | poisoned
  deriving DecidableEq, Repr

/-- What an action answers with. -/
@[reducible]
def Ans : Act → Type
  | .acquire .. => Bool
  | .tryAcquire _ => TryLock
  | .reacquire _ => Option Bool
  | .loadClosing | .loadUncertain | .loadFlag _ | .port _ => Bool
  | .loadEpoch | .newFlag | .now => ℕ
  | .unixSeconds | .resolve _ | .unlock => Except SessionError ℕ
  | .readAuthority => Authority
  | .readState => Except ProviderDiagnostic ProviderState
  | .provider op => Except op.Error op.Value
  | .backend _ => Except SessionError Unit
  | .eligible _ => Except SessionError Bool
  | .lookupToken _ => Option ℕ
  | .lookupExecution _ => Option ActiveExecution × ℕ
  | .listExecutions => List (String × ActiveExecution)
  | .supervise => List ControlCall × Supervision
  | .handOver _ => Except ExecutionError Unit
  | .createSecret .. => Except WriteStatus String
  | _ => Unit

/-- What an action reads outside the memory. -/
structure Input where
  env : Env
  outcome : WriteOutcome
  unreadable : Bool
  poisoned : Bool
  timedOut : Bool
  session : Except SessionError Unit
  eligible : Except SessionError Bool
  number : Except SessionError ℕ
  port : Bool
  supervision : List ControlCall × Supervision
  handOver : Except ExecutionError Unit
  secret : Except WriteStatus String

namespace Shared

/-- The history goes on. -/
def note (m : Shared) (t : ℕ) (mark : Mark) : Shared := { m with log := m.log ++ [(t, mark)] }

def take (m : Shared) (t : ℕ) (l : Lock) : Shared :=
  { m with holder := Function.update m.holder l (some t) }

def drop (m : Shared) (l : Lock) : Shared :=
  { m with holder := Function.update m.holder l none }

/-- The value of a flag. -/
def flag (m : Shared) (cell : ℕ) : Bool := m.flags.getD cell false

/-- The session is admitted: `admit` would let a call pass. -/
def admitted? (m : Shared) : Bool :=
  !m.closing && !m.authority.cleanupFailed && m.authority.deadline.any (m.clock < ·)

/-- Executions that a wait is for are still registered. -/
def busy (m : Shared) : Option (List String) → Bool
  | none => !m.executions.isEmpty
  | some ids => ids.any fun id => (lookupKey m.executions id).isSome

/-- The mark of getting a mutex. -/
def entry (m : Shared) : Option ℕ → List Mark
  | none => []
  | some captured =>
    [.entered captured m.revocationEpoch m.authority.sessionEpoch m.admitted?]

/-- The token of the agent a request is from. -/
def token (m : Shared) (id : String) : Option ℕ :=
  (m.authority.requestAgents id).bind (lookupKey m.agentTokens)

/-- The earlier of the deadlines of a request and of the session. -/
def deadline (m : Shared) (id : String) : Option ℕ :=
  match m.authority.requestDeadlines id, m.authority.deadline with
  | some request, some session => some (min request session)
  | _, _ => none

/-- The receipt stored for a request. -/
def receipt (m : Shared) (id : String) : Option WriteReceipt :=
  (m.authority.store.durable.direct id).bind (·.writeReceipt)

end Shared

section Perform

variable (E : Externals) (ownerUid : UInt32)

/-- One provider operation. -/
def performProvider (t : ℕ) (op : Op) (input : Input) (m : Shared) :
    Except op.Error op.Value × Shared :=
  let store := m.authority.store
  let result := store.call E ownerUid op input.env input.outcome input.unreadable
  let handed := !input.unreadable &&
    (Event.handsOver E ownerUid store (.op op input.env input.outcome)).isSome
  let ok := result.2.isOk
  (result.2,
    { m with
      authority := { m.authority with store := result.1 }
      log := m.log ++ [(t, .operated op handed ok)]
      admitted := m.admitted ++ if ok then op.message.toList else [] })

/-- One action of a thread; `none` while it waits. -/
def performAct (t : ℕ) : (a : Act) → Input → Shared → Option (Ans a × Shared)
  | .acquire l e, input, m =>
    if input.poisoned then some (false, m)
    else if m.holder l = none then
      some (true, { m.take t l with log := m.log ++ (m.entry e).map (t, ·) })
    else none
  | .tryAcquire l, input, m =>
    if m.holder l ≠ none then some (.busy, m)
    else if input.poisoned then some (.poisoned, m)
    else some (.acquired, m.take t l)
  | .force l, _, m => if m.holder l = none then some ((), m.take t l) else none
  | .reacquire ids, input, m =>
    if input.poisoned then some (none, m)
    else if m.holder .executions = none && (input.timedOut || !m.busy ids) then
      some (some input.timedOut, m.take t .executions)
    else none
  | .release l, _, m => if m.holder l = some t then some ((), m.drop l) else none
  | .loadClosing, _, m => some (m.closing, m)
  | .storeClosing, _, m => some ((), { m with closing := true }.note t .closed)
  | .loadEpoch, _, m => some (m.revocationEpoch, m)
  | .publishEpoch, _, m =>
    some ((), { m with revocationEpoch := m.revocationEpoch + 1 }.note t
      (.published (m.revocationEpoch + 1)))
  | .loadUncertain, _, m => some (m.cleanupUncertain, m)
  | .storeUncertain, _, m => some ((), { m with cleanupUncertain := true })
  | .newFlag, _, m => some (m.flags.length, { m with flags := m.flags ++ [false] })
  | .loadFlag cell, _, m => some (m.flag cell, m)
  | .setFlag cell, _, m => some ((), { m with flags := m.flags.set cell true }.note t (.set cell))
  | .now, _, m =>
    some (m.clock, m.note t (.read m.clock
      (m.holder .gate = some t && m.holder .releaseGate = some t)))
  | .unixSeconds, input, m => some (input.number, m)
  | .readAuthority, _, m => some (m.authority, m)
  | .update u, _, m =>
    some ((), { m with
      authority := u.apply m.authority
      log := m.log ++ match u with
        | .unlocked .. => [(t, .authenticated)]
        | _ => [] })
  | .readState, input, m =>
    some (if input.unreadable then .error .invalidState
      else m.authority.store.readState E ownerUid input.env.disk, m)
  | .provider op, input, m => some (performProvider E ownerUid t op input m)
  | .backend _, input, m => some (input.session, m)
  | .eligible _, input, m => some (input.eligible, m)
  | .resolve _, input, m => some (input.number, m)
  | .unlock, input, m => some (input.number, m)
  | .port _, input, m => some (input.port, m)
  | .lookupToken id, _, m => some (lookupKey m.agentTokens id, m)
  | .insertToken id cell, _, m =>
    some ((), { m with agentTokens := insertKey m.agentTokens id cell })
  | .lookupExecution id, _, m =>
    let found := lookupKey m.executions id
    some ((found, m.log.length), m.note t (.looked id found.isSome))
  | .listExecutions, _, m => some (m.executions, m)
  | .register id execution, _, m =>
    some ((), { m with executions := insertKey m.executions id execution }.note t
      (.registered id execution.cancel (m.token id) (m.deadline id)))
  | .removeExecution id, _, m => some ((), { m with executions := removeKey m.executions id })
  | .supervise, input, m => some (input.supervision, m)
  | .handOver execution, input, m => some (input.handOver, m.note t (.handedOver execution m.clock))
  | .createSecret id _, input, m =>
    some (input.secret, { m with created := m.created ++ [(id, m.receipt id)] })
  | .returnsCancelled id first, _, m => some ((), m.note t (.cancelled id first))
  | .returnsAnswer bindingId nonce, _, m => some ((), m.note t (.answered bindingId nonce))
  | .stall, _, _ => none

end Perform

end VaultAccess.Model
