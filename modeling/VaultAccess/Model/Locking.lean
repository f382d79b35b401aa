import VaultAccess.Library.Locking

/-!
# The locks of the application and its browser surface

What every operation of `src/access/application.rs`, the launch broker and the dispatcher of
`src/adapters/loopback_ui.rs` do with the mutexes of the provider. What the state, the clock,
the backend and the ports decide is left open: `mayFail` is a run of steps without locks that
may end the operation, and `either` is a decision. A failure is fatal where the code says
`Unavailable`, and plain otherwise.
-/

set_option autoImplicit false

namespace VaultAccess.Model.Locking

open VaultAccess.Library

/-- The mutexes, in the order in which they are taken.
SRCLINE: application.rs:64-77; loopback_ui.rs:88-93, 264 -/
inductive Lock where
  | ui
  | gate
  | releaseGate
  | executions
  | agentTokens
  | pending
  deriving DecidableEq, Repr

def Lock.rank : Lock → ℕ
  | ui => 0
  | gate => 1
  | releaseGate => 2
  | executions => 3
  | agentTokens => 4
  | pending => 5

abbrev Code := LockCode Lock

open LockCode

/-! ## Parts of operations -/

/-- `lock().map_err(|_| Unavailable)?` and the scope of the guard. -/
def lockedOr (l : Lock) (body : Code) : Code := locked l .fatal body

/-- A method that holds the gate while it asks the provider and the backend. -/
def gated : Code := lockedOr .gate mayFail

/-- SRCLINE: application.rs:273-277 -/
def closeAdmission : Code := forced .releaseGate skip

/-- `if result == Err(Unavailable) { self.close_admission() }` -/
def closing (body : Code) : Code := handled body skip closeAdmission skip

/-- `await_cleanup` and `await_agent_cleanup`: the executions are given up before admission is closed.
SRCLINE: application.rs:278-306, 531-551 -/
def awaitCleanup : Code :=
  lockedOr .executions (awaits .executions) ++ either skip (closeAdmission ++ fails .fatal)

/-- `agent_token` of a request that an agent owns; there is nothing to do for another.
SRCLINE: application.rs:552-567 -/
def agentToken : Code := lockedOr .agentTokens mayFail

/-- SRCLINE: application.rs:573-591 -/
def requestAgentLive : Code := either skip agentToken

/-- SRCLINE: application.rs:1848-1868 -/
def executionLive : Code := mayFail ++ requestAgentLive ++ mayFail

/-- SRCLINE: application.rs:1869-1880 -/
def executionLiveCurrent : Code := executionLive ++ mayFail

/-- The durable read between the two looks at the session fails after the second.
SRCLINE: application.rs:1799-1831 -/
def executionAuthority : Code := executionLive ++ executionLive ++ mayFail

/-- SRCLINE: application.rs:1832-1847 -/
def executionAuthorityCurrent : Code := executionAuthority ++ executionLiveCurrent

/-- SRCLINE: application.rs:2044-2060 -/
def provisioningResult : Code := closing mayFail ++ mayFail

/-! ## The launch broker -/

/-- SRCLINE: loopback_ui.rs:94-131 -/
def launch : Code := mayFail ++ locked .pending .plain mayFail

/-- SRCLINE: loopback_ui.rs:134-140 -/
def take : Code := locked .pending .plain mayFail

/-! ## The session -/

/-- SRCLINE: application.rs:251-268 -/
def lock : Code := lockedOr .releaseGate skip ++ lockedOr .gate skip ++ awaitCleanup ++ mayFail

/-- SRCLINE: application.rs:269-272 -/
def shutdown : Code := closeAdmission ++ lock

/-- SRCLINE: application.rs:904-907 -/
def revokeRequester : Code := mayFail ++ lock

/-- SRCLINE: application.rs:1995-2007 -/
def status : Code := gated

/-- SRCLINE: application.rs:2321-2359 -/
def authenticate : Code := gated

/-! ## Agents -/

/-- SRCLINE: application.rs:365-409 -/
def pairAgent : Code :=
  mayFail ++ lockedOr .gate (mayFail ++
    handled mayFail (lockedOr .releaseGate (mayFail ++ lockedOr .agentTokens skip)) closeAdmission skip)

/-- SRCLINE: application.rs:410-425 -/
def listAgents : Code := mayFail ++ lockedOr .gate skip ++ closing mayFail

/-- What a revocation does before its durable part.
SRCLINE: application.rs:460-486 -/
def denyToken : Code := lockedOr .releaseGate (mayFail ++ agentToken)

/-- The durable revocation, whose result is looked at when the gate is free again.
SRCLINE: application.rs:502-520 -/
def revokeUnderGate : Code := lockedOr .executions skip

/-- SRCLINE: application.rs:521-530 -/
def afterRevocation : Code := either skip closeAdmission ++ attempt awaitCleanup ++ mayFail

/-- `revoke_agent` by the owner: the token is denied before the gate is waited for.
SRCLINE: application.rs:426-439, 441-530 -/
def revokeAgent : Code := mayFail ++ denyToken ++ lockedOr .gate revokeUnderGate ++ afterRevocation

/-- `revoke_agent_checked` with an authority: the gate is held from the beginning.
SRCLINE: application.rs:441-530 -/
def revokeAgentChecked : Code :=
  mayFail ++ tryLocked .gate .fatal .fatal (denyToken ++ revokeUnderGate) ++ afterRevocation

/-- SRCLINE: application.rs:593-629 -/
def agentStatus : Code := mayFail ++ agentToken ++ mayFail ++ lockedOr .gate (closing mayFail ++ mayFail)

/-- SRCLINE: application.rs:632-664 -/
def agentPeerEligible : Code :=
  closing (mayFail ++ tryLocked .gate .plain .fatal (mayFail ++ agentToken))

/-- SRCLINE: application.rs:668-769 -/
def submitSigned : Code :=
  closing (mayFail ++ tryLocked .gate .plain .fatal (mayFail ++ agentToken ++ mayFail ++
    lockedOr .releaseGate mayFail ++
    lockedOr .releaseGate (either skip (attempt launch ++ mayFail)) ++ mayFail))

/-- A round of the last loop reads the status, looks at it under the release gate, and refreshes.
SRCLINE: application.rs:774-884 -/
def signedAgentStatus : Code :=
  closing (mayFail ++ tryLocked .gate .plain .fatal (mayFail ++ agentToken ++ mayFail ++
    loop (mayFail ++ lockedOr .releaseGate skip ++ mayFail) ++
    mayFail ++ lockedOr .releaseGate mayFail))

/-! ## Requests -/

/-- SRCLINE: application.rs:939-1058 -/
def submitDirect : Code :=
  mayFail ++ either skip agentToken ++ mayFail ++ tryLocked .gate .fatal .fatal (mayFail ++
    either skip (lockedOr .releaseGate mayFail) ++
    closing mayFail ++ mayFail ++ either mayFail (attempt launch ++ mayFail) ++ mayFail)

/-- SRCLINE: application.rs:1062-1086 -/
def reconcileWrite : Code := mayFail ++ gated

/-- SRCLINE: application.rs:1087-1131 -/
def history : Code := mayFail ++ gated

/-- SRCLINE: application.rs:1098-1131 -/
def historyCurrent : Code := gated

/-- SRCLINE: application.rs:1132-1155 -/
def reviewDirect : Code := mayFail ++ gated

/-- The methods of the companion that read under the gate.
SRCLINE: application.rs:1156-1166, 1200-1251 -/
def companionRead : Code := gated

/-- SRCLINE: application.rs:1167-1198 -/
def managementRetire : Code :=
  tryLocked .gate .fatal .fatal (mayFail ++ lockedOr .releaseGate mayFail) ++ attempt awaitCleanup

/-- SRCLINE: application.rs:1260-1290 -/
def companionPrepare : Code := lockedOr .gate (mayFail ++ requestAgentLive ++ mayFail)

/-- SRCLINE: application.rs:1302-1319 -/
def managementAuthority : Code := lockedOr .gate (mayFail ++ lockedOr .releaseGate skip)

/-- SRCLINE: application.rs:1320-1330 -/
def decisionGeneration : Code := gated

/-- SRCLINE: application.rs:1331-1355 -/
def prepareApproval : Code := mayFail ++ lockedOr .gate (mayFail ++ requestAgentLive ++ mayFail)

/-- `commit_approval`, `companion_deny`.
SRCLINE: application.rs:1291-1296, 1356-1362, 1882-1994 -/
def commitDecision : Code :=
  lockedOr .gate (mayFail ++ either skip agentToken ++ mayFail ++ either skip (lockedOr .releaseGate mayFail) ++
    closing mayFail ++ mayFail)

/-- SRCLINE: application.rs:1363-1369 -/
def denyDirect : Code := prepareApproval ++ commitDecision

/-! ## Provisioning -/

/-- `create_operation`, `activate_operation`.
SRCLINE: application.rs:2010-2043, 2161-2299 -/
def provisionOperation : Code := mayFail ++ lockedOr .gate (mayFail ++ provisioningResult)

/-- SRCLINE: application.rs:2062-2089 -/
def registerImage : Code := mayFail ++ lockedOr .gate (mayFail ++ provisioningResult)

/-- `list_images`, `show_image`, `list_operations`, `show_operation`.
SRCLINE: application.rs:2091-2159 -/
def listed : Code := mayFail ++ gated

/-- SRCLINE: application.rs:2301-2318 -/
def consumeScoped : Code := gated

/-! ## Execution -/

/-- SRCLINE: application.rs:104-115 -/
def controlLive : Code := either skip (attempt (locked .gate .plain skip))

/-- The action runs while both gates are held.
SRCLINE: application.rs:119-149 -/
def controlRelease : Code :=
  locked .gate .plain (executionAuthority ++ executionLiveCurrent ++ locked .releaseGate .plain mayFail)

/-- SRCLINE: application.rs:150-163 -/
def controlStarted : Code := locked .gate .plain skip ++ handled mayFail skip closeAdmission closeAdmission

/-- The supervisor asks its control as often as it likes.
SRCLINE: application.rs:1550-1598; ports.rs:170-180 -/
def superviseControlled : Code :=
  loop (attempt (either controlLive (either controlRelease controlStarted)))

/-- The claim, under the release gate where an agent asked.
SRCLINE: application.rs:1419-1450 -/
def claim : Code := mayFail ++ lockedOr .executions skip

/-- What the second scope of the gate resolves.
SRCLINE: application.rs:1469-1546 -/
def resolveCredentials : Code :=
  mayFail ++ executionAuthorityCurrent ++ either skip (mayFail ++ executionAuthorityCurrent) ++
    mayFail ++ executionLiveCurrent ++
    either skip (mayFail ++ executionAuthorityCurrent ++ mayFail ++ executionAuthorityCurrent) ++
    loop (executionLiveCurrent ++ mayFail ++ executionLiveCurrent ++ mayFail) ++
    mayFail ++ executionAuthorityCurrent

/-- SRCLINE: application.rs:1609-1690 -/
def writeSecret : Code :=
  controlLive ++ mayFail ++ lockedOr .gate (executionLiveCurrent ++ mayFail ++ executionLiveCurrent ++ mayFail ++
    lockedOr .releaseGate mayFail ++ mayFail)

/-- SRCLINE: application.rs:1698-1745 -/
def finish : Code := controlLive ++ lockedOr .releaseGate mayFail ++ lockedOr .gate mayFail ++ mayFail

/-- SRCLINE: application.rs:1374-1752 -/
def runExecution : Code :=
  mayFail ++ either skip (closeAdmission ++ fails .fatal) ++
    lockedOr .gate (executionLiveCurrent ++ mayFail ++ either skip agentToken ++
      either claim (lockedOr .releaseGate claim) ++ attempt executionAuthorityCurrent) ++
    lockedOr .gate (attempt resolveCredentials) ++
    either skip superviseControlled ++ either skip closeAdmission ++ either skip (attempt writeSecret) ++
    attempt finish ++ lockedOr .executions skip ++ mayFail

/-- SRCLINE: application.rs:1758-1798 -/
def prepareExecution : Code :=
  mayFail ++ lockedOr .gate (executionAuthority ++ mayFail ++ executionAuthority ++ mayFail ++ executionLive ++
    executionLive ++ mayFail ++ loop (executionLive ++ executionLive ++ mayFail) ++ executionAuthority)

/-- An execution that is registered is cancelled after both guards are dropped; else the decision is
taken again in the order of the release.
SRCLINE: application.rs:307-364 -/
def cancelExecution : Code :=
  mayFail ++ lockedOr .releaseGate (lockedOr .executions skip) ++
    either awaitCleanup
      (lockedOr .gate (lockedOr .releaseGate (lockedOr .executions skip)) ++ closing mayFail ++ awaitCleanup)

/-! ## The browser -/

/-- The list is copied before the application is asked.
SRCLINE: loopback_ui.rs:141-158 -/
def prune : Code :=
  locked .pending .plain skip ++
    loop (attempt reviewDirect ++ either skip (attempt (locked .pending .plain skip)))

/-- SRCLINE: loopback_ui.rs:317-327 -/
def decisionAuthorized : Code := either skip (attempt decisionGeneration)

/-- SRCLINE: loopback_ui.rs:478-556 -/
def handleLaunch : Code := mayFail ++ either skip (take ++ reviewDirect ++ mayFail) ++ decisionGeneration ++ mayFail

/-- SRCLINE: loopback_ui.rs:564-580 -/
def handleHistory : Code := mayFail ++ either history historyCurrent

/-- SRCLINE: loopback_ui.rs:581-597 -/
def handleReview : Code := decisionAuthorized ++ mayFail ++ reviewDirect ++ decisionAuthorized

/-- SRCLINE: loopback_ui.rs:598-611 -/
def handleDeny : Code := decisionAuthorized ++ mayFail ++ denyDirect

/-- SRCLINE: loopback_ui.rs:612-634 -/
def handleSession : Code := either (mayFail ++ authenticate) lock ++ attempt status

/-- SRCLINE: loopback_ui.rs:422-635 -/
def handle : Code :=
  mayFail ++ either handleLaunch (mayFail ++ either handleHistory (either handleReview
    (either handleDeny handleSession)))

/-- The authenticator is a port, or the application itself; no lock is held while it works.
SRCLINE: loopback_ui.rs:292-293; application.rs:2320 -/
def verifyPassword : Code := attempt (either skip authenticate)

/-- SRCLINE: loopback_ui.rs:269-315 -/
def approve : Code :=
  locked .ui .plain (decisionAuthorized ++ mayFail ++ prepareApproval ++ mayFail) ++ verifyPassword ++
    locked .ui .plain (decisionAuthorized ++ mayFail ++ commitDecision ++
      either skip (closeAdmission ++ fails .plain))

/-- SRCLINE: loopback_ui.rs:264-315 -/
def dispatch : Code := either (locked .ui .plain handle) approve

/-- The broker's list at the end of the service.
SRCLINE: loopback_ui.rs:417-419 -/
def clearPending : Code := attempt (locked .pending .plain skip)

/-! ## Threads -/

/-- What a thread of the provider may call. -/
inductive Operation where
  | closeAdmission | lock | shutdown | revokeRequester | status | authenticate
  | pairAgent | listAgents | revokeAgent | revokeAgentChecked | agentStatus | agentPeerEligible
  | submitSigned | signedAgentStatus | submitDirect | reconcileWrite | history | historyCurrent
  | reviewDirect | companionRead | managementRetire | companionPrepare | managementAuthority
  | decisionGeneration | prepareApproval | commitDecision | denyDirect | provisionOperation
  | registerImage | listed | consumeScoped | runExecution | prepareExecution | cancelExecution
  | controlLive | controlRelease | controlStarted
  | launch | take | prune | clearPending | dispatch
  deriving DecidableEq, Repr

def Operation.code : Operation → Code
  | closeAdmission => Locking.closeAdmission
  | lock => Locking.lock
  | shutdown => Locking.shutdown
  | revokeRequester => Locking.revokeRequester
  | status => Locking.status
  | authenticate => Locking.authenticate
  | pairAgent => Locking.pairAgent
  | listAgents => Locking.listAgents
  | revokeAgent => Locking.revokeAgent
  | revokeAgentChecked => Locking.revokeAgentChecked
  | agentStatus => Locking.agentStatus
  | agentPeerEligible => Locking.agentPeerEligible
  | submitSigned => Locking.submitSigned
  | signedAgentStatus => Locking.signedAgentStatus
  | submitDirect => Locking.submitDirect
  | reconcileWrite => Locking.reconcileWrite
  | history => Locking.history
  | historyCurrent => Locking.historyCurrent
  | reviewDirect => Locking.reviewDirect
  | companionRead => Locking.companionRead
  | managementRetire => Locking.managementRetire
  | companionPrepare => Locking.companionPrepare
  | managementAuthority => Locking.managementAuthority
  | decisionGeneration => Locking.decisionGeneration
  | prepareApproval => Locking.prepareApproval
  | commitDecision => Locking.commitDecision
  | denyDirect => Locking.denyDirect
  | provisionOperation => Locking.provisionOperation
  | registerImage => Locking.registerImage
  | listed => Locking.listed
  | consumeScoped => Locking.consumeScoped
  | runExecution => Locking.runExecution
  | prepareExecution => Locking.prepareExecution
  | cancelExecution => Locking.cancelExecution
  | controlLive => Locking.controlLive
  | controlRelease => Locking.controlRelease
  | controlStarted => Locking.controlStarted
  | launch => Locking.launch
  | take => Locking.take
  | prune => Locking.prune
  | clearPending => Locking.clearPending
  | dispatch => Locking.dispatch

/-- A thread makes its calls one after the other, however each of them ends. -/
def worker : List Operation → Code
  | [] => skip
  | operation :: rest => attempt operation.code ++ worker rest

/-- The threads of the provider. -/
def machine : Machine (LockAct Lock) LockAns (Locks Lock) LockInput Empty Unit (List Operation) := lockMachine worker

end VaultAccess.Model.Locking
