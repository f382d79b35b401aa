import VaultAccess.Model.Application

/-!
# Denying an agent while its calls write

`revoke_agent`, `signed_agent_status` and `submit_signed` of `src/access/application.rs`, where
the guarded writes of the last two are taken step by step: the state is prepared, the
authorization is checked, the file is renamed into place, the directory is synced, the
authorization is checked again, and the store is poisoned if it is gone. Other threads take
steps in between. All other calls and steps are those of the application.
-/

set_option autoImplicit false

namespace VaultAccess.Model.Denials

open VaultAccess.Library VaultAccess.Model.Application

/-! ## Steps -/

/-- What `still_authorized` captured; a submission has a window, a status query has none. -/
structure Guard where
  token : ℕ
  window : Option SubmitWindow

/-- `still_authorized`. Each of its readings is false for good once it is false, so that one
evaluation is one step.
SRCLINE: application.rs:706-712, 815-817 -/
def Guard.holds (g : Guard) (m : Shared) : Bool :=
  !m.closing && !m.flag g.token && g.window.all fun w =>
    m.revocationEpoch = w.epoch && m.clock < w.sessionDeadline && m.clock < w.deadline

inductive StepAct where
  | app (a : Act)
  /-- The state is read, the operation is applied and the temporary file is written. -/
  | prepare (op : Op)
  /-- `still_authorized` before the rename. -/
  | check (guard : Guard)
  | discard
  | rename
  | syncDirectory
  /-- `still_authorized` after the rename. -/
  | recheck (guard : Guard)
  | poison
  /-- The revocation returns: no step of the code, only of the history. -/
  | returns (result : Except DirectRequestError AgentBindingView)

/-- What a step answers with; a prepared operation tells whether it writes. -/
@[reducible]
def StepAns : StepAct → Type
  | .app a => Ans a
  | .prepare op => Except op.Error (op.Value × Bool)
  | .check _ | .rename | .syncDirectory | .recheck _ => Bool
  | .discard | .poison | .returns _ => Unit

/-- `temporary` is the state in the temporary file. The rest is history: the guards of the
writes that are past their first check and not past their second, the calls that began, and
what the revocations returned. -/
structure Memory where
  shared : Shared
  temporary : Option ProviderState
  writing : ℕ → Option Guard
  called : ℕ → Option Call
  returned : List (ℕ × Except DirectRequestError AgentBindingView)

/-- A process in which no call has begun. -/
def Memory.fresh (shared : Shared) : Memory := ⟨shared, none, fun _ => none, fun _ => none, []⟩

namespace Memory

def store (m : Memory) : Store := m.shared.authority.store

def setStore (m : Memory) (store : Store) : Memory :=
  { m with shared := { m.shared with authority := { m.shared.authority with store := store } } }

def setWriting (m : Memory) (t : ℕ) (guard : Option Guard) : Memory :=
  { m with writing := Function.update m.writing t guard }

end Memory

section Perform

variable (E : Externals) (ownerUid : UInt32)

/-- What `prepare` answers with, and the state it writes to the temporary file.
SRCLINE: provider_store.rs:378-405 -/
def prepared (store : Store) (op : Op) (input : Input) :
    Except op.Error (op.Value × Bool) × Option ProviderState :=
  if input.unreadable then (.error (op.readError .invalidState), none)
  else match store.readState E ownerUid input.env.disk with
    | .error e => (.error (op.readError e), none)
    | .ok s => match op.eval E ownerUid input.env s with
      | .error e => (.error e, none)
      | .ok handed => match handed.state with
        | none => (.ok (handed.value, false), none)
        | some s' =>
          if !s'.validateForOwner E input.env.disk ownerUid then (.error (op.writeError .invalidState), none)
          else match input.outcome with
            | .failedBefore diagnostic => (.error (op.writeError diagnostic), none)
            | _ => (.ok (handed.value, true), some s')

/-- One step of a thread; `none` while it waits. An operation that is one step ends its write, and
leaves no temporary file. -/
def perform (t : ℕ) : (a : StepAct) → Input → Memory → Option (StepAns a × Memory)
  | .app a, input, m =>
    (performAct E ownerUid t a input m.shared).map fun (answer, shared) =>
      (answer, { m with
        shared := shared
        temporary := match a with
          | .provider _ => none
          | _ => m.temporary })
  | .prepare op, input, m =>
    let (answer, temporary) := prepared E ownerUid m.store op input
    some (answer, { m with temporary := temporary })
  | .check guard, _, m =>
    let holds := guard.holds m.shared
    some (holds, if holds then m.setWriting t (some guard) else m)
  | .discard, _, m => some ((), { m with temporary := none })
  | .rename, input, m =>
    match input.outcome, m.temporary with
    | .failedBefore _, _ | _, none => some (false, m)
    | _, some s => some (true, { m.setStore { m.store with durable := s } with temporary := none })
  | .syncDirectory, input, m => some (decide (input.outcome = .committed), m)
  | .recheck guard, _, m => some (guard.holds m.shared, m.setWriting t none)
  | .poison, _, m => some ((), m.setStore { m.store with poisoned := true })
  | .returns result, _, m => some ((), { m with returned := m.returned ++ [(t, result)] })

end Perform

/-! ## Programs -/

/-- A fallible program of steps. -/
abbrev StepApp (ε α : Type) := ExceptT ε (Prog StepAct StepAns) α

/-- A program of the application, step by step. -/
def embed {α : Type} : Prog Act Ans α → Prog StepAct StepAns α
  | .done value => .done value
  | .act a next => .act (.app a) fun answer => embed (next answer)

def lift {ε α : Type} (x : App ε α) : StepApp ε α := ExceptT.mk (embed x.run)

/-- One step. -/
def step {ε : Type} (a : StepAct) : StepApp ε (StepAns a) := ExceptT.lift (Prog.perform a)

def attemptStep {ε δ α : Type} (x : StepApp ε α) : StepApp δ (Except ε α) := ExceptT.lift x.run

/-- `try_lock()` and the scope of its guard. -/
def withTryGate {ε α : Type} (busy poisoned : ε) (body : StepApp ε α) : StepApp ε α := do
  match ← lift (act (.tryAcquire .gate)) with
  | .acquired =>
    let result ← attemptStep body
    lift (act (.release .gate))
    lift (raise result)
  | .busy => throw busy
  | .poisoned => throw poisoned

/-- An operation whose write is guarded.
SRCLINE: provider_store.rs:373-425 -/
def guardedWrite (op : Op) (guard : Guard) : StepApp op.Error op.Value := do
  let (value, writes) ← lift (raise (← step (.prepare op)))
  if !writes then pure value
  else
    if !(← step (.check guard)) then
      step .discard
      throw (op.writeError .expiredAccessRequest)
    if !(← step .rename) then throw (op.writeError .persistenceFailure)
    let synced ← step .syncDirectory
    let authorized ← step (.recheck guard)
    if !synced || !authorized then
      step .poison
      throw (op.writeError .persistenceFailure)
    pure value

/-- A rejection as unavailable closes admission. -/
def closingIfUnavailable {α : Type} (x : StepApp AgentRejection α) : StepApp AgentRejection α := do
  let result ← attemptStep x
  match result with
  | .error .unavailable => lift closeAdmission
  | _ => pure ()
  lift (raise result)

section Revocation

variable (ownerUid : UInt32)

/-- What a revocation does under the gate, with the view it returns.
SRCLINE: application.rs:494-521 -/
def revokeUnderGate (human : UInt32) (id : String) :
    App DirectRequestError (Except DirectRequestError AgentBindingView × List String) := do
  let result ← match ← act .unixSeconds with
    | .error e => pure (.error (.ofSession e))
    | .ok now => act (.provider (.revokeAgent human id now))
  let affected ← withLock .executions .unavailable do
    let active ← act .listExecutions
    cancelAll (active.filter (·.2.agentId = some id))
  pure (result, affected)

/-- SRCLINE: application.rs:426-439, 441-530 -/
def revokeAgent (human : UInt32) (id : String) : App DirectRequestError AgentBindingView := do
  checkOwner ownerUid .unauthorized human
  denyToken id none
  let (result, affected) ← withLock .gate .unavailable (revokeUnderGate human id)
  if !result.isOk then closeAdmission
  let complete ← attempt (awaitAgentCleanup affected)
  let view ← raise result
  if complete.isOk then pure view else throw .unavailable

end Revocation

section Messages

variable (E : Externals) (ownerUid : UInt32) (requestLifetime : ℕ)

/-- The admission of a submission, up to the release gate.
SRCLINE: application.rs:682-704 -/
def openWindow (uid : UInt32) (groups : List UInt32) (input : SignedSubmission) :
    App AgentRejection (AgentOwner × ℕ × ℕ × SubmitWindow) := do
  admission.adapt .ofSession
  expireRequests.adapt .ofSession
  let authority ← act .readAuthority
  let epoch := authority.sessionEpoch
  if (← act .loadEpoch) ≠ epoch then throw .locked
  let s ← ofExcept (fun _ => .unavailable) (← act .readState)
  let owner ← raise (authenticateAgent E ownerUid s uid groups input)
  let token ← (agentToken owner.bindingId).adapt .ofDirect
  if !(← tokenLive (some token)) then throw .unauthorized
  let deadline ← okOr .unavailable (durationAdd (← act .now) requestLifetime)
  let now ← ofExcept .ofSession (← act .unixSeconds)
  let expires ← okOr .unavailable (checkedAdd now (requestLifetime / 1000000000))
  let sessionDeadline ← okOr .locked authority.deadline
  pure (owner, now, expires, ⟨token, epoch, sessionDeadline, deadline⟩)

/-- SRCLINE: application.rs:713-719 -/
def checkWindow (window : SubmitWindow) : App AgentRejection Bool := do
  if !(← tokenLive (some window.token)) then throw .unauthorized
  if !(← window.live) then throw .locked
  window.live

/-- SRCLINE: application.rs:669-770 -/
def submitSigned (uid : UInt32) (groups : List UInt32) (input : SignedSubmission) :
    StepApp AgentRejection String := closingIfUnavailable do
  if ← lift (act .loadClosing) then throw .unavailable
  withTryGate .busy .unavailable do
    let (owner, now, expires, window) ← lift (openWindow E ownerUid requestLifetime uid groups input)
    if !(← lift (act (.acquire .releaseGate none))) then throw .unavailable
    let review ← attemptStep (do
      let authorized ← lift (checkWindow window)
      guardedWrite (.createSigned owner input now expires authorized) ⟨window.token, some window⟩)
    lift (act (.release .releaseGate))
    let review ← lift (raise review)
    lift (launchSigned owner window review.id)
    pure review.id

/-- SRCLINE: application.rs:774-881 -/
def signedAgentStatus (uid : UInt32) (groups : List UInt32) (query : SignedStatusQuery)
    (rounds : ℕ) : StepApp AgentRejection AgentStatus := closingIfUnavailable do
  if ← lift (act .loadClosing) then throw .unavailable
  withTryGate .busy .unavailable do
    let (owner, token) ← lift (do
      let s ← ofExcept (fun _ => .unavailable) (← act .readState)
      let owner ← raise (authenticateStatusQuery E ownerUid s uid groups query)
      let token ← (agentToken owner.bindingId).adapt .ofDirect
      if !(← tokenLive (some token)) then throw .unauthorized
      if ← act .loadClosing then throw .unavailable
      refresh
      pure (owner, token))
    guardedWrite (.consumeStatusQuery owner query) ⟨token, none⟩
    lift (do
      refresh
      snapshot owner token uid groups query.requestId rounds)

end Messages

/-! ## The machine -/

section Machine

variable (E : Externals) (ownerUid : UInt32) (requestLifetime : ℕ)

/-- The code a call runs. -/
def code : Call → Prog StepAct StepAns Unit
  | .revokeAgent human id none => do
    let result ← (lift (revokeAgent ownerUid human id)).run
    Prog.perform (StepAct.returns result)
  | .submitSigned uid groups input => do
    let _ ← (submitSigned E ownerUid requestLifetime uid groups input).run
  | .signedAgentStatus uid groups query rounds => do
    let _ ← (signedAgentStatus E ownerUid uid groups query rounds).run
  | call => embed (Application.code E ownerUid requestLifetime call)

/-- The application with its guarded writes step by step. -/
def machine : Machine StepAct StepAns Memory Input ℕ Restart Call where
  perform := perform E ownerUid
  code := code E ownerUid requestLifetime
  spawn t call m :=
    if (m.called t).isSome then none
    else some { m with called := Function.update m.called t (some call) }
  world elapsed m := { m with shared := { m.shared with clock := m.shared.clock + elapsed } }
  abandon t m :=
    { m with shared := { m.shared with
        holder := fun l => if m.shared.holder l = some t then none else m.shared.holder l } }
  restart r m := .fresh (.fresh
    (Model.step E ownerUid m.store (.restart r.env r.outcome)) r.clock m.shared.admitted m.shared.created)

end Machine

end VaultAccess.Model.Denials
