import VaultAccess.Model.Provider

/-!
# The store and runs of the provider

`ProviderStore` as the operations see it: the durable state, the poison flag and
the three ways a write can end. A run is a sequence of operations, each with the
readings it makes and the way its write ends, and of restarts, which a crash may
force at any point.
-/

set_option autoImplicit false

namespace VaultAccess.Model

/-- How a write that passed its checks ends. -/
inductive WriteOutcome where
  /-- Renamed and synced while authorized. -/
  | committed
  /-- A step before the rename failed, or the authorization was gone. -/
  | failedBefore (diagnostic : ProviderDiagnostic)
  /-- Renamed, but the directory sync failed or the authorization was lost, or the process
  died meanwhile; `kept` tells which state a later start finds. -/
  | uncertain (kept : Bool)
  deriving DecidableEq, Repr

/-- The state whose document was last renamed into place, and the process around it. -/
structure Store where
  durable : ProviderState
  /-- No process serves the store, or its process is poisoned. -/
  poisoned : Bool
  deriving DecidableEq, Repr

section Store

variable (E : Externals) (ownerUid : UInt32)

/-- SRCLINE: provider_store.rs:351-369 -/
def Store.readState (disk : Disk) (store : Store) : Except ProviderDiagnostic ProviderState :=
  if store.poisoned then .error .unsafeState
  else match store.durable.wire.tryFrom E disk with
    | none => .error .invalidState
    | some s => if s.validateForOwner E disk ownerUid then .ok s else .error .invalidState

/-- SRCLINE: provider_store.rs:373-425 -/
def Store.writeState (disk : Disk) (store : Store) (s : ProviderState) (w : WriteOutcome) :
    Store × Except ProviderDiagnostic Unit :=
  if store.poisoned then (store, .error .unsafeState)
  else if !s.validateForOwner E disk ownerUid then (store, .error .invalidState)
  else match w with
    | .committed => ({ store with durable := s }, .ok ())
    | .failedBefore diagnostic => (store, .error diagnostic)
    | .uncertain kept =>
      (⟨if kept then s else store.durable, true⟩, .error .persistenceFailure)

end Store

/-- The mutating operations of a running provider. -/
inductive Op where
  | pairAgent (human : UInt32) (input : AgentPairing) (now : ℕ)
  | revokeAgent (human : UInt32) (id : String) (now : ℕ)
  | createDirect (owner : UInt32) (input : DirectSubmission) (now expires : ℕ) (authorized : Bool)
  | createSigned (owner : AgentOwner) (input : SignedSubmission) (now expires : ℕ)
      (authorized : Bool)
  | expireDirect (now : ℕ) (deadlines : String → Option ℕ)
  | decideDirect (binding : ApprovalBinding) (approve : Bool) (method : Option ApprovalMethod)
      (now : ℕ)
  | claimExecution (owner : UInt32) (id : String)
  | executionStarted (binding : ApprovalBinding)
  | finishExecution (binding : ApprovalBinding) (status : DirectStatus) (cleanup : CleanupEvidence)
  | cancelUnclaimedExecution (owner : UInt32) (id : String)
  | failDirectLaunch (id : String)
  | beginWrite (binding : ApprovalBinding)
  | recordWrite (binding : ApprovalBinding) (item : Option String) (status : WriteStatus)
  | reconcileWrite (id itemId : String)
  | consumeStatusQuery (owner : AgentOwner) (query : SignedStatusQuery)
  | provisionOperation (draft : OperationPolicyDraft) (verifier : LoginEligibilityVerifier)
      (createOnly authorized : Bool)
  | registerImage (input : ApprovedImage) (verified : Except ProviderDiagnostic Unit)
  | lock

/-- The state an operation hands over, if it succeeded and writes. -/
def handedState {ε α : Type} (result : Except ε (Handed α)) : Option ProviderState :=
  match result with
  | .ok handed => handed.state
  | .error _ => none

/-- The state an operation hands to the store after reading `s`. -/
def Op.handed (E : Externals) (ownerUid : UInt32) (env : Env) (s : ProviderState) :
    Op → Option ProviderState
  | pairAgent human input now => handedState (Model.pairAgent E ownerUid env s human input now)
  | revokeAgent human id now => handedState (Model.revokeAgent ownerUid s human id now)
  | createDirect owner input now expires authorized =>
    handedState (Model.createDirect E env s owner input now expires authorized)
  | createSigned owner input now expires authorized =>
    handedState (Model.createSigned E env s owner input now expires authorized)
  | expireDirect now deadlines => handedState (Model.expireDirect env s now deadlines)
  | decideDirect binding approve method now =>
    handedState (Model.decideDirect ownerUid s binding approve method now)
  | claimExecution owner id => handedState (Model.claimExecution ownerUid s owner id)
  | executionStarted binding => handedState (Model.executionStarted env s binding)
  | finishExecution binding status cleanup =>
    handedState (Model.finishExecution env s binding status cleanup)
  | cancelUnclaimedExecution owner id =>
    handedState (Model.cancelUnclaimedExecution ownerUid env s owner id)
  | failDirectLaunch id => handedState (Model.failDirectLaunch env s id)
  | beginWrite binding => handedState (Model.beginWrite s binding)
  | recordWrite binding item status => handedState (Model.recordWrite s binding item status)
  | reconcileWrite id itemId => handedState (Model.reconcileWrite env s id itemId)
  | consumeStatusQuery owner query => handedState (Model.consumeStatusQuery E s owner query)
  | provisionOperation draft verifier createOnly authorized =>
    handedState (Model.provisionOperation E env s draft verifier createOnly authorized)
  | registerImage input verified => handedState (Model.registerImage E env s input verified)
  | lock => handedState (Model.lock env s)

/-- What an operation answers with. -/
@[reducible]
def Op.Value : Op → Type
  | pairAgent .. | revokeAgent .. => AgentBindingView
  | createDirect .. | createSigned .. => DirectReview
  | decideDirect .. => DirectStatus
  | claimExecution .. => ApprovalBinding
  | reconcileWrite .. => WriteReceipt
  | provisionOperation .. => String
  | registerImage .. => ApprovedImage
  | _ => Unit

/-- How an operation fails. -/
@[reducible]
def Op.Error : Op → Type
  | createSigned .. | consumeStatusQuery .. => AgentRejection
  | expireDirect .. | failDirectLaunch .. | provisionOperation .. | registerImage .. | lock =>
    ProviderDiagnostic
  | _ => DirectRequestError

/-- The operation on the state it read. -/
def Op.eval (E : Externals) (ownerUid : UInt32) (env : Env) (s : ProviderState) :
    (op : Op) → Except op.Error (Handed op.Value)
  | pairAgent human input now => Model.pairAgent E ownerUid env s human input now
  | revokeAgent human id now => Model.revokeAgent ownerUid s human id now
  | createDirect owner input now expires authorized =>
    Model.createDirect E env s owner input now expires authorized
  | createSigned owner input now expires authorized =>
    Model.createSigned E env s owner input now expires authorized
  | expireDirect now deadlines => Model.expireDirect env s now deadlines
  | decideDirect binding approve method now =>
    Model.decideDirect ownerUid s binding approve method now
  | claimExecution owner id => Model.claimExecution ownerUid s owner id
  | executionStarted binding => Model.executionStarted env s binding
  | finishExecution binding status cleanup => Model.finishExecution env s binding status cleanup
  | cancelUnclaimedExecution owner id => Model.cancelUnclaimedExecution ownerUid env s owner id
  | failDirectLaunch id => Model.failDirectLaunch env s id
  | beginWrite binding => Model.beginWrite s binding
  | recordWrite binding item status => Model.recordWrite s binding item status
  | reconcileWrite id itemId => Model.reconcileWrite env s id itemId
  | consumeStatusQuery owner query => Model.consumeStatusQuery E s owner query
  | provisionOperation draft verifier createOnly authorized =>
    Model.provisionOperation E env s draft verifier createOnly authorized
  | registerImage input verified => Model.registerImage E env s input verified
  | lock => Model.lock env s

/-- How an operation reports that the state could not be read. -/
def Op.readError : (op : Op) → ProviderDiagnostic → op.Error
  | createSigned .., _ | consumeStatusQuery .., _ => AgentRejection.unavailable
  | expireDirect .., e | failDirectLaunch .., e | provisionOperation .., e
  | registerImage .., e | lock, e => e
  | pairAgent .., e | revokeAgent .., e | createDirect .., e | decideDirect .., e
  | claimExecution .., e | executionStarted .., e | finishExecution .., e
  | cancelUnclaimedExecution .., e | beginWrite .., e | recordWrite .., e | reconcileWrite .., e =>
    DirectRequestError.ofProvider e

/-- How an operation reports that its write failed; an authorization that ended is told apart.
SRCLINE: provider.rs:376-386 -/
def Op.writeError : (op : Op) → ProviderDiagnostic → op.Error
  | createSigned .., e =>
    AgentRejection.ofDirect (if e = .expiredAccessRequest then .locked else .unavailable)
  | consumeStatusQuery .., e =>
    if e = .expiredAccessRequest then AgentRejection.unauthorized else AgentRejection.unavailable
  | op, e => op.readError e

/-- One call of an operation: the store after it and its answer. `unreadable` tells that the
document could not be read. -/
def Store.call (E : Externals) (ownerUid : UInt32) (store : Store) (op : Op) (env : Env)
    (w : WriteOutcome) (unreadable : Bool) : Store × Except op.Error op.Value :=
  if unreadable then (store, .error (op.readError .invalidState))
  else match store.readState E ownerUid env.disk with
    | .error e => (store, .error (op.readError e))
    | .ok s => match op.eval E ownerUid env s with
      | .error e => (store, .error e)
      | .ok handed => match handed.state with
        | none => (store, .ok handed.value)
        | some s' => match store.writeState E ownerUid env.disk s' w with
          | (store, .ok ()) => (store, .ok handed.value)
          | (store, .error e) => (store, .error (op.writeError e))

/-- One step of a run: an operation of the running provider, or a new start after the old
process ended in any way. -/
inductive Event where
  | op (op : Op) (env : Env) (w : WriteOutcome)
  | restart (env : Env) (w : WriteOutcome)

def Event.env : Event → Env
  | op _ env _ => env
  | restart env _ => env

section Run

variable (E : Externals) (ownerUid : UInt32)

/-- The store an event starts from: a restart finds the durable state and no poison. -/
def Event.opened (store : Store) : Event → Store
  | op _ _ _ => store
  | restart _ _ => { store with poisoned := false }

/-- The state an event hands over after reading `s`. -/
def Event.handed (s : ProviderState) : Event → Option ProviderState
  | op o env _ => o.handed E ownerUid env s
  | restart env _ => handedState (recover env s)

def Event.outcome : Event → WriteOutcome
  | op _ _ w => w
  | restart _ w => w

/-- The state the event reads, when the store is readable. -/
def Event.reads (store : Store) (event : Event) : Option ProviderState :=
  match (event.opened store).readState E ownerUid event.env.disk with
  | .ok s => some s
  | .error _ => none

/-- The state the event hands to the store. -/
def Event.handsOver (store : Store) (event : Event) : Option ProviderState :=
  (event.reads E ownerUid store).bind (event.handed E ownerUid)

/-- A start that does not end with a committed write leaves no serving process. -/
def Event.closed (event : Event) (store : Store) : Store :=
  match event with
  | op _ _ _ => store
  | restart _ _ => { store with poisoned := true }

/-- One event. -/
def step (store : Store) (event : Event) : Store :=
  match event.handsOver E ownerUid store with
  | none => event.closed store
  | some s =>
    match (event.opened store).writeState E ownerUid event.env.disk s event.outcome with
    | (store, .ok ()) => store
    | (store, .error _) => event.closed store

def run (store : Store) (events : List Event) : Store := events.foldl (step E ownerUid) store

end Run

/-- The store `create_initial_layout` leaves before the first start; no process serves it yet.
SRCLINE: provider_store.rs:567-590 -/
def Store.initial : Store := ⟨ProviderState.initial, true⟩

end VaultAccess.Model
