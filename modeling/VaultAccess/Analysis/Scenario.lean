import VaultAccess.Analysis.Alone
import VaultAccess.Analysis.Validation

/-!
# Calls that run alone

What the entry points do in a good memory when nothing comes in between: a lock, an
authentication, the steps of a further entry point, and an execution up to the hand-over
of its secrets.
-/

set_option autoImplicit false

namespace VaultAccess.Analysis

open VaultAccess.Library VaultAccess.Model VaultAccess.Model.Application

/-! ## Calls of the provider -/

/-- INTERNAL: a legitimate operation that is committed. -/
theorem call_commits {E : Externals} {ownerUid : UInt32} {env : Env} {s s' : ProviderState} {op : Op}
    {value : op.Value} (hinv : StateInv E ownerUid s) (himages : ImagesUnchanged E env.disk s)
    (hargs : CallerArgs env s op) (htime : RecordsWhileExecuting s op)
    (heval : op.eval E ownerUid env s = .ok ⟨value, some s'⟩) :
    Store.call E ownerUid ⟨s, false⟩ op env .committed false = (⟨s', false⟩, .ok value) ∧
      StateInv E ownerUid s' := by
  have hread : Store.readState E ownerUid env.disk ⟨s, false⟩ = .ok s := by
    simp [Store.readState, hinv.tryFrom_wire env.disk himages,
      hinv.validateForOwner env.disk himages]
  have hover : Event.handsOver E ownerUid ⟨s, false⟩ (.op op env .committed) = some s' := by
    simp [Event.handsOver, Event.reads, Event.opened, Event.env, hread, Event.handed, handed_eq_eval,
      heval, handedState]
  obtain ⟨hinv', himages'⟩ := handsOver_stateInv ⟨s, false⟩ (.op op env .committed) s' hinv
    ⟨himages, hargs⟩ htime hover
  refine ⟨?_, hinv'⟩
  have hwrite : Store.writeState E ownerUid env.disk ⟨s, false⟩ s' .committed =
      (⟨s', false⟩, .ok ()) := by
    simp [Store.writeState, hinv'.validateForOwner env.disk himages']
  simp only [Store.call, Bool.false_eq_true, if_false, hread, heval, hwrite]

section Calls

variable {T : Thread} {opens : Bool} {H : List Lock} {m : Shared} (env : Env)

include env

/-! ## Sessions -/

/-- The memory after its authority was revoked. -/
def revoked (m : Shared) (store : Store) : Shared :=
  { m with authority := { m.authority with
      store := store, deadline := none, cleanupFailed := false
      generation := m.authority.generation + 1, requestDeadlines := fun _ => none } }

/-- INTERNAL: a revocation. -/
theorem returns_revoke {store : Store} (hgeneration : m.authority.generation + 1 < u64Size)
    (hlock : m.authority.store.call T.E T.ownerUid .lock env .committed false = (store, .ok ())) :
    Returns T opens H m revoke () (revoked m store) := by
  unfold revoke
  refine returns_bind (returns_readAuthority env) ?_
  have hadd : checkedAdd m.authority.generation 1 = some (m.authority.generation + 1) := by
    simp [checkedAdd, hgeneration]
  rw [hadd]
  refine returns_bind (returns_pure _) ?_
  refine returns_bind (returns_update env (.revoked _) (by simp)) ?_
  refine returns_bind (returns_backend env .clear) ?_
  refine returns_bind (returns_operation env rfl hlock) ?_
  exact returns_update env .cleaned (by simp)

/-- The session is admitted until `deadline`. -/
structure Admits (m : Shared) (limit : ℕ) : Prop where
  closing : m.closing = false
  clean : m.authority.cleanupFailed = false
  deadline : m.authority.deadline = some limit
  clock : m.clock < limit

/-- INTERNAL: an admitted session. -/
theorem returns_admission {deadline : ℕ} (h : Admits m deadline) :
    Returns T opens H m admission () m := by
  unfold admission
  refine returns_bind (returns_loadClosing env) ?_
  simp only [h.closing, Bool.false_eq_true, if_false]
  refine returns_bind (returns_readAuthority env) ?_
  rw [h.deadline]
  refine returns_bind (returns_pure _) ?_
  refine returns_bind (returns_now env) ?_
  simp only [h.clock, h.clean, decide_true, Bool.not_false, Bool.and_self, if_true]
  exact returns_pure ()

/-- INTERNAL: nothing is left to wait for. -/
theorem returns_awaitCleanup (hexecutions : m.executions = [])
    (huncertain : m.cleanupUncertain = false) :
    Returns T opens [] m (awaitCleanup none) () m := by
  unfold awaitCleanup
  refine Goes.bind (goes_acquire env (by simp) none) ?_
  refine Goes.bind (returns_listExecutions env) ?_
  simp only [hexecutions, stillActive]
  refine Goes.bind (returns_pure false) ?_
  refine Goes.bind (returns_listExecutions env) ?_
  simp only [Bool.false_and, Bool.false_eq_true, if_false]
  refine Goes.bind (returns_loadUncertain env) ?_
  refine Goes.bind (goes_release env (by simp)) ?_
  rw [huncertain]
  exact returns_pure ()

/-- INTERNAL: a lock publishes its revocation before it needs the gate. -/
theorem steps_publish (log : List (ℕ × Mark)) :
    ∃ inputs next, Prog.Steps (machine T.E T.ownerUid T.requestLifetime) T.number
      Application.lock.run (held T.number [] log m) inputs (.act (.acquire .gate none) next)
      (held T.number [] (log ++ [(T.number, .published (m.revocationEpoch + 1))])
        { m with revocationEpoch := m.revocationEpoch + 1 }) := by
  let log' := log ++ [(T.number, Mark.published (m.revocationEpoch + 1))]
  let m' := { m with revocationEpoch := m.revocationEpoch + 1 }
  have hacquire : performAct T.E T.ownerUid T.number (.acquire .releaseGate none) (good env)
      (held T.number [] log m) = some (true, held T.number [.releaseGate] log m) := by
    simp only [performAct, good, holder_held _ .releaseGate [] List.not_mem_nil, Bool.false_eq_true,
      if_false, if_true, held_take, Shared.entry, List.map_nil, List.append_nil]
    rfl
  have hrelease : performAct T.E T.ownerUid T.number (.release .releaseGate) (good env)
      (held T.number [.releaseGate] log' m') = some ((), held T.number [] log' m') := by
    have hheld : (held T.number [.releaseGate] log' m').holder .releaseGate = some T.number := by
      simp [held]
    simp only [performAct, hheld, if_true, held_drop _ .releaseGate [] List.not_mem_nil]
  exact ⟨[good env, good env, good env], _, .act _ _ _ _ _ _ _ _ true hacquire
    (.act _ _ _ _ (held T.number [.releaseGate] log' m') _ _ _ () rfl
      (.act _ _ _ _ _ _ _ _ () hrelease (.refl _ _)))⟩

/-- INTERNAL: a lock, with nothing running. -/
theorem returns_lock {store : Store} (hgeneration : m.authority.generation + 1 < u64Size)
    (hlock : m.authority.store.call T.E T.ownerUid .lock env .committed false = (store, .ok ()))
    (hexecutions : m.executions = []) (huncertain : m.cleanupUncertain = false) :
    Returns T opens [] m Application.lock ()
      (revoked { m with revocationEpoch := m.revocationEpoch + 1 } store) := by
  unfold Application.lock
  refine returns_bind (returns_withLock env (by simp) (returns_publishEpoch env)) ?_
  have hrevoke : Returns T opens [.gate] { m with revocationEpoch := m.revocationEpoch + 1 } revoke ()
      (revoked { m with revocationEpoch := m.revocationEpoch + 1 } store) :=
    returns_revoke env hgeneration hlock
  refine returns_bind (returns_withLock env (by simp) (returns_attempt hrevoke)) ?_
  exact returns_bind (returns_awaitCleanup env hexecutions huncertain) (returns_pure ())

/-- The memory after a session was opened at the current epoch. -/
def unlocked (m : Shared) (store : Store) : Shared :=
  { revoked m store with authority := { (revoked m store).authority with
      deadline := some (m.clock + 100), sessionEpoch := m.revocationEpoch } }

/-- INTERNAL: an authentication. -/
theorem returns_authenticate {store : Store} (hgeneration : m.authority.generation + 1 < u64Size)
    (hlock : m.authority.store.call T.E T.ownerUid .lock env .committed false = (store, .ok ()))
    (hclosing : m.closing = false) (hclean : m.authority.cleanupFailed = false)
    (hclock : m.clock + 100 < u64Size * 1000000000) (hopens : opens = true) :
    Returns T opens [] m authenticate () (unlocked m store) := by
  unfold authenticate
  refine returns_withLock env (by simp) ?_
  refine returns_bind (returns_loadClosing env) ?_
  rw [hclosing]
  refine returns_bind (returns_readAuthority env) ?_
  rw [hclean]
  refine returns_bind (returns_revoke env hgeneration hlock) ?_
  refine returns_bind (returns_now env) ?_
  refine returns_bind (returns_loadEpoch env) ?_
  refine returns_bind (returns_backend env .probeCompatibility) ?_
  refine returns_bind (returns_unlock env) ?_
  have hadd : durationAdd m.clock (min 100 MAX_SESSION) = some (m.clock + 100) := by
    simp [durationAdd, MAX_SESSION, hclock]
  simp only [openSession, ne_eq, OfNat.ofNat_ne_zero, not_false_eq_true, if_true,
    show (revoked m store).clock = m.clock from rfl, hadd]
  refine returns_bind (returns_loadClosing env) ?_
  rw [show (revoked m store).closing = false from hclosing]
  refine returns_bind (returns_now env) ?_
  have hlate : ¬ m.clock + 100 ≤ (revoked m store).clock := by simp [revoked]
  rw [decide_eq_false hlate]
  refine returns_bind (returns_pure false) ?_
  exact returns_update env (.unlocked (m.clock + 100) m.revocationEpoch) fun _ _ _ => hopens

/-! ## Further entry points -/

/-- INTERNAL: one operation of a further entry point. -/
theorem returns_otherOperation {op : Op} {store : Store} {value : op.Value}
    (helsewhere : elsewhere op = true) (hop : op.message = none)
    (h : m.authority.store.call T.E T.ownerUid op env .committed false = (store, .ok value)) :
    Returns T opens H m (otherStep (.provider op)) ()
      { m with authority := { m.authority with store := store } } := by
  simp only [otherStep, if_pos helsewhere]
  exact returns_bind (returns_operation env hop h) (returns_pure ())

theorem returns_otherDeadline (id : String) (deadline : ℕ) :
    Returns T opens H m (otherStep (.requestDeadline id deadline)) ()
      { m with authority := (AuthorityUpdate.requestDeadline id deadline).apply m.authority } :=
  returns_update env _ (by simp)

/-! ## Executions -/

/-- The request may execute: its session is admitted, its deadline is ahead, and it is not an
agent's. -/
structure Executable (m : Shared) (id : String) (session request : ℕ) : Prop extends
    Admits m session where
  requestDeadline : m.authority.requestDeadlines id = some request
  ahead : m.clock < request
  agent : m.authority.requestAgents id = none

variable {E : Externals} {ownerUid owner : UInt32} {id : String} {session request : ℕ}

/-- INTERNAL: the request is live. -/
theorem returns_executionLive (h : Executable m id session request) :
    Returns T opens H m (executionLive id) () m := by
  unfold executionLive
  refine returns_bind (returns_adapt _ (returns_admission env h.toAdmits)) ?_
  have hagent : Returns T opens H m (requestAgentLive id) () m := by
    unfold requestAgentLive
    refine returns_bind (returns_readAuthority env) ?_
    rw [h.agent]
    exact returns_pure ()
  refine returns_bind hagent ?_
  have hover : Returns T opens H m (requestOver id : App DirectRequestError Bool) false m := by
    unfold requestOver
    refine returns_bind (returns_readAuthority env) ?_
    rw [h.requestDeadline]
    refine returns_bind (returns_now env) ?_
    rw [decide_eq_false (Nat.not_le.mpr h.ahead)]
    exact returns_pure false
  exact returns_bind hover (returns_pure ())

/-- INTERNAL: the request is live at the current epoch. -/
theorem returns_executionLiveCurrent (h : Executable m id session request) :
    Returns T opens H m (executionLiveCurrent id m.revocationEpoch) () m := by
  unfold executionLiveCurrent
  refine returns_bind (returns_executionLive env h) ?_
  refine returns_bind (returns_loadEpoch env) ?_
  rw [if_neg (by simp)]
  exact returns_pure ()

/-- What an execution of the request is given, as the store has it. -/
structure Delivers (E : Externals) (ownerUid : UInt32) (env : Env) (store : Store) (owner : UInt32)
    (id : String) (claimed : Bool) (candidate : ApprovalBinding × OperationPolicy × List String) :
    Prop where
  reads : ∃ s, store.readState E ownerUid env.disk = .ok s ∧
    executionDelivery E ownerUid s owner id claimed = .ok candidate
  agent : candidate.1.agentOwner = none

/-- INTERNAL: the authority of an execution. -/
theorem returns_executionAuthority {claimed : Bool} {expected : Option ApprovalBinding}
    {candidate : ApprovalBinding × OperationPolicy × List String}
    (h : Executable m id session request)
    (hdelivers : Delivers T.E T.ownerUid env m.authority.store owner id claimed candidate)
    (hexpected : ∀ binding, expected = some binding → binding = candidate.1) :
    Returns T opens H m (executionAuthority T.E T.ownerUid owner id expected claimed) candidate m := by
  obtain ⟨s, hread, hdelivery⟩ := hdelivers.reads
  unfold executionAuthority
  refine returns_bind (returns_executionLive env h) ?_
  have hdeliver : Returns T opens H m (deliver T.E T.ownerUid owner id claimed :
      App DirectRequestError _) (.ok candidate) m := by
    unfold deliver
    refine returns_bind (returns_readState env hread) ?_
    simp only [hdelivery]
    exact returns_pure _
  refine returns_bind hdeliver ?_
  refine returns_bind (returns_executionLive env h) ?_
  refine returns_bind (returns_pure candidate) ?_
  refine returns_bind (returns_readAuthority env) ?_
  have hagents : candidate.1.agentOwner.map (·.bindingId) = m.authority.requestAgents id := by
    rw [hdelivers.agent, h.agent]
    rfl
  rw [if_neg (by simpa using hagents)]
  have hany : expected.any (· ≠ candidate.1) = false := by
    cases expected with
    | none => rfl
    | some binding => simp [hexpected binding rfl]
  rw [hany]
  exact returns_pure candidate

/-- INTERNAL: the authority of an execution at the current epoch. -/
theorem returns_executionAuthorityCurrent {expected : Option ApprovalBinding}
    {candidate : ApprovalBinding × OperationPolicy × List String}
    (h : Executable m id session request)
    (hdelivers : Delivers T.E T.ownerUid env m.authority.store owner id false candidate)
    (hexpected : ∀ binding, expected = some binding → binding = candidate.1) :
    Returns T opens H m
      (executionAuthorityCurrent T.E T.ownerUid owner id expected m.revocationEpoch) candidate m := by
  unfold executionAuthorityCurrent
  refine returns_bind (returns_executionAuthority env h hdelivers hexpected) ?_
  exact returns_bind (returns_executionLiveCurrent env h) (returns_pure candidate)

omit env in
theorem returns_tokenLive :
    Returns T opens H m (tokenLive none : App DirectRequestError Bool) true m := returns_pure true

/-- INTERNAL: the first section comes to the claim. -/
theorem comes_claimSection (h : Executable m id session request) :
    Comes T opens [.gate] m (claimSection E ownerUid owner id m.revocationEpoch)
      (.provider (.claimExecution owner id)) [.gate] m := by
  unfold claimSection
  refine comes_bind (returns_executionLiveCurrent env h) ?_
  refine comes_bind (returns_readAuthority env) ?_
  rw [h.requestDeadline, h.deadline, h.agent]
  refine comes_bind (returns_pure request) ?_
  refine comes_bind (returns_pure session) ?_
  refine comes_bind (returns_pure none) ?_
  refine comes_first ?_
  simp only [withLockIf, Option.isSome_none, Bool.false_eq_true, if_false, claimAndRegister]
  refine comes_bind (returns_tokenLive) ?_
  exact comes_first (comes_act _)

/-- INTERNAL: **an execution of an approved request comes to the claim.** -/
theorem comes_runExecution_claim (h : Executable m id session request) (howner : owner = T.ownerUid) :
    Comes T opens [] m (runExecution T.E T.ownerUid owner id)
      (.provider (.claimExecution owner id)) [.gate] m := by
  unfold runExecution
  rw [show checkOwner T.ownerUid DirectRequestError.unauthorized owner = pure () by
    simp [checkOwner, howner]]
  refine comes_bind (returns_pure ()) ?_
  refine comes_bind (returns_port env .supervisorAvailable) ?_
  refine comes_bind (returns_loadEpoch env) ?_
  refine Goes.bind (goes_acquire env (by simp) _) ?_
  exact comes_first (comes_first (comes_attempt (comes_claimSection env h)))

/-- The memory after a claim that was registered. -/
def claiming (m : Shared) (store : Store) (id : String) : Shared :=
  { m with
    authority := { m.authority with store := store }
    flags := m.flags ++ [false]
    executions := insertKey m.executions id ⟨m.flags.length, none⟩ }

omit env in
theorem Executable.claiming (h : Executable m id session request) (store : Store) (id' : String) :
    Executable (claiming m store id') id session request :=
  ⟨⟨h.closing, h.clean, h.deadline, h.clock⟩, h.requestDeadline, h.ahead, h.agent⟩

variable {store : Store} {candidate : ApprovalBinding × OperationPolicy × List String}

/-- INTERNAL: the first section. -/
theorem returns_claimSection (h : Executable m id session request)
    (hclaim : m.authority.store.call T.E T.ownerUid (.claimExecution owner id) env .committed false =
      (store, .ok candidate.1))
    (hdelivers : Delivers T.E T.ownerUid env store owner id false candidate) :
    Returns T opens [.gate] m (claimSection T.E T.ownerUid owner id m.revocationEpoch)
      ⟨candidate.1, min request session, m.flags.length, none, .ok candidate⟩
      (claiming m store id) := by
  unfold claimSection
  refine returns_bind (returns_executionLiveCurrent env h) ?_
  refine returns_bind (returns_readAuthority env) ?_
  rw [h.requestDeadline, h.deadline, h.agent]
  refine returns_bind (returns_pure request) ?_
  refine returns_bind (returns_pure session) ?_
  refine returns_bind (returns_pure none) ?_
  have hregister : Returns T opens [.gate] m (claimAndRegister owner id none none)
      (candidate.1, m.flags.length) (claiming m store id) := by
    unfold claimAndRegister
    refine returns_bind (returns_tokenLive) ?_
    refine returns_bind (returns_operation env rfl hclaim) ?_
    refine returns_bind (returns_newFlag env) ?_
    exact returns_bind (returns_withLock env (by simp) (returns_register env id _)) (returns_pure _)
  refine returns_bind hregister ?_
  have hauthority : Returns T opens [.gate] (claiming m store id)
      (executionAuthorityCurrent T.E T.ownerUid owner id (some candidate.1) m.revocationEpoch)
      candidate (claiming m store id) :=
    returns_executionAuthorityCurrent env (h.claiming store id) hdelivers
      fun binding hbinding => (Option.some.inj hbinding).symm
  exact returns_bind (returns_attempt hauthority) (returns_pure _)

/-- INTERNAL: the second section of an execution without logins and without SSH. -/
theorem returns_resolveSection (h : Executable m id session request)
    (hdelivers : Delivers T.E T.ownerUid env m.authority.store owner id false candidate)
    {policy : OperationPolicy} (hssh : policy.ssh = none) (hcredentials : policy.credentials = [])
    {effect : CreateEffect} (hcreate : policy.create = some effect) :
    Returns T opens [.gate] m
      (resolveSection T.E T.ownerUid owner id candidate.1 m.revocationEpoch (.ok policy))
      (some effect, .ok policy) m := by
  have hport : ∀ call, Returns T opens [.gate] m (portOk call) () m :=
    fun call => returns_bind (returns_port env call) (returns_pure ())
  have hbackend : ∀ call, Returns T opens [.gate] m (backendOk call) () m :=
    fun call => returns_bind (returns_backend env call) (returns_pure ())
  have hauthority : Returns T opens [.gate] m
      (do let _ ← executionAuthorityCurrent T.E T.ownerUid owner id (some candidate.1) m.revocationEpoch)
      () m :=
    returns_bind (returns_executionAuthorityCurrent env h hdelivers
      fun binding hbinding => (Option.some.inj hbinding).symm) (returns_pure ())
  have hprepare : Returns T opens [.gate] m (prepareCreate policy) (some effect) m := by
    unfold prepareCreate
    rw [hcreate]
    exact returns_bind (hport _) (returns_bind (hbackend _) (returns_pure _))
  have hsecrets : Returns T opens [.gate] m
      (resolveSecrets T.E T.ownerUid owner id candidate.1 m.revocationEpoch policy) () m := by
    unfold resolveSecrets
    rw [hssh, hcredentials]
    refine returns_bind hauthority ?_
    refine returns_bind (hbackend _) ?_
    refine returns_bind (returns_executionLiveCurrent env h) ?_
    refine returns_bind (returns_pure ()) ?_
    exact returns_bind (hport _) hauthority
  exact returns_bind (returns_attempt hprepare)
    (returns_bind (returns_attempt hsecrets) (returns_pure _))

/-- INTERNAL: the last look before secrets are handed over. -/
theorem returns_liveFast {e : ApplicationExecution} (hcancel : m.flag e.cancel = false)
    (htoken : e.agentToken = none) (hclosing : m.closing = false)
    (hepoch : m.revocationEpoch = e.epoch) (hclock : m.clock < e.deadline) :
    Returns T opens H m (liveFast e : App ExecutionError Bool) true m := by
  unfold liveFast
  refine returns_bind (returns_loadFlag env e.cancel) ?_
  rw [hcancel, htoken]
  refine returns_bind (returns_pure true) ?_
  refine returns_bind (returns_loadClosing env) ?_
  rw [hclosing]
  refine returns_bind (returns_loadEpoch env) ?_
  rw [if_neg (by simpa using hepoch)]
  refine returns_bind (returns_now env) ?_
  rw [decide_eq_true hclock]
  exact returns_pure true

/-- INTERNAL: a release comes to the hand-over. -/
theorem comes_release {e : ApplicationExecution}
    (h : Executable m e.binding.requestId session request)
    (hdelivers : Delivers T.E T.ownerUid env m.authority.store e.owner e.binding.requestId true
      candidate) (hbinding : e.binding = candidate.1) (hcancel : m.flag e.cancel = false)
    (htoken : e.agentToken = none) (hepoch : m.revocationEpoch = e.epoch)
    (hclock : m.clock < e.deadline) :
    Comes T opens [] m (release T.E T.ownerUid e) (.handOver e) [.releaseGate, .gate] m := by
  unfold release
  refine comes_withLock env (by simp) ?_
  refine comes_bind (returns_adapt _ (returns_executionAuthority env h hdelivers
    fun binding heq => (Option.some.inj heq).symm.trans hbinding)) ?_
  rw [← hepoch]
  refine comes_bind (returns_adapt _ (returns_executionLiveCurrent env h)) ?_
  refine comes_withLock env (by simp) ?_
  refine comes_bind (returns_liveFast env hcancel htoken h.closing hepoch hclock) ?_
  exact comes_first (comes_act _)

/-- INTERNAL: the command line is prepared. -/
theorem returns_prepare {policy : OperationPolicy} {binding : ApprovalBinding} {argv : List String}
    (hssh : policy.ssh = none) :
    Returns T opens H m (prepare (.ok (binding, policy, argv)) : App DirectRequestError _)
      (.ok policy) m := by
  unfold prepare
  simp only [hssh, Option.isSome_none, Bool.false_eq_true, if_false]
  refine returns_bind (returns_pure true) ?_
  exact returns_bind (returns_port env (.prepare argv)) (returns_pure _)

/-- INTERNAL: the supervisor asks for the release first. -/
theorem comes_superviseControlled {e : ApplicationExecution} {policy : OperationPolicy} {a : Act}
    {H' : List Lock} {m₁ : Shared} (hssh : policy.ssh = none)
    (h : Comes T opens H m (release T.E T.ownerUid e) a H' m₁) :
    Comes T opens H m
      (superviseControlled T.E T.ownerUid e (.ok policy) : App DirectRequestError Supervision) a H'
      m₁ := by
  unfold superviseControlled
  simp only [hssh, Option.isSome_none, Bool.false_eq_true, if_false]
  refine comes_bind (returns_pure true) ?_
  refine comes_bind (returns_supervise env) ?_
  exact comes_first (comes_first (comes_first (comes_attempt h)))

/-- INTERNAL: **an execution of an approved request comes to the hand-over.** -/
theorem comes_runExecution_handOver (h : Executable m id session request)
    (howner : owner = T.ownerUid) (hid : id = candidate.1.requestId)
    (hclaim : m.authority.store.call T.E T.ownerUid (.claimExecution owner id) env .committed false =
      (store, .ok candidate.1))
    (hdelivers : ∀ claimed, Delivers T.E T.ownerUid env store owner id claimed candidate)
    (hssh : candidate.2.1.ssh = none) (hcredentials : candidate.2.1.credentials = [])
    {effect : CreateEffect} (hcreate : candidate.2.1.create = some effect) :
    Comes T opens [] m (runExecution T.E T.ownerUid owner id)
      (.handOver ⟨owner, candidate.1, m.revocationEpoch, min request session, m.flags.length, none⟩)
      [.releaseGate, .gate] (claiming m store id) := by
  subst hid
  have h' := h.claiming store candidate.1.requestId
  unfold runExecution
  rw [show checkOwner T.ownerUid DirectRequestError.unauthorized owner = pure () by
    simp [checkOwner, howner]]
  refine comes_bind (returns_pure ()) ?_
  refine comes_bind (returns_port env .supervisorAvailable) ?_
  refine comes_bind (returns_loadEpoch env) ?_
  refine Goes.bind (goes_acquire env (by simp) _) ?_
  refine Goes.bind (goes_holding env (by simp) (returns_claimSection env h hclaim (hdelivers false))) ?_
  refine comes_bind (returns_prepare env hssh) ?_
  refine comes_bind (returns_withLock env (by simp)
    (returns_resolveSection env h' (hdelivers false) hssh hcredentials hcreate)) ?_
  refine comes_first ?_
  refine comes_superviseControlled env hssh (comes_release env h' (hdelivers true) rfl ?_ rfl rfl ?_)
  · simp [claiming, Shared.flag]
  · exact lt_min h.ahead h.clock

/-! ## Messages of agents -/

/-- The memory while its authority is revoked, before the provider is locked. -/
def revoking (m : Shared) : Shared :=
  { m with authority := (AuthorityUpdate.revoked (m.authority.generation + 1)).apply m.authority }

/-- The memory after deadlines that are over were dropped. -/
def retaining (m : Shared) : Shared :=
  { m with authority := (AuthorityUpdate.retained m.clock).apply m.authority }

/-- The memory after a message was admitted, and after its request was launched. -/
def admitting (m : Shared) (store : Store) (pair : String × String) : Shared :=
  { m with authority := { m.authority with store := store }, admitted := m.admitted ++ [pair] }
def launching (m : Shared) (id bindingId : String) (deadline : ℕ) : Shared :=
  let asked := (AuthorityUpdate.requestAgent id bindingId).apply m.authority
  { m with authority := (AuthorityUpdate.requestDeadline id deadline).apply asked }

/-- INTERNAL: a revocation comes to the lock of the provider. -/
theorem comes_revoke (hgeneration : m.authority.generation + 1 < u64Size) :
    Comes T opens H m revoke (.provider .lock) H (revoking m) := by
  unfold revoke
  refine comes_bind (returns_readAuthority env) ?_
  have hadd : checkedAdd m.authority.generation 1 = some (m.authority.generation + 1) := by
    simp [checkedAdd, hgeneration]
  rw [hadd]
  refine comes_bind (returns_pure _) ?_
  refine comes_bind (returns_update env (.revoked _) (by simp)) ?_
  refine comes_bind (returns_backend env .clear) ?_
  exact comes_first (comes_act _)

/-- INTERNAL: a session that is over is locked. -/
theorem comes_admission (hgeneration : m.authority.generation + 1 < u64Size) (hclosing : m.closing = false)
    (hdeadline : m.authority.deadline = some session) (hover : session ≤ m.clock) :
    Comes T opens H m admission (.provider .lock) H (revoking m) := by
  unfold admission
  refine comes_bind (returns_loadClosing env) ?_
  rw [hclosing]
  refine comes_bind (returns_readAuthority env) ?_
  rw [hdeadline]
  refine comes_bind (returns_pure _) ?_
  refine comes_bind (returns_now env) ?_
  simp only [Nat.not_lt.mpr hover, decide_false, Bool.false_and, Bool.false_eq_true, if_false]
  exact comes_first (comes_revoke env hgeneration)

/-- INTERNAL: no request expires. -/
theorem returns_expireRequests
    (h : m.authority.store.call T.E T.ownerUid (.expireDirect m.clock m.authority.requestDeadlines) env
      .committed false = (m.authority.store, .ok ())) :
    Returns T opens H m expireRequests () (retaining m) := by
  unfold expireRequests
  refine returns_bind (returns_now env) ?_
  refine returns_bind (returns_readAuthority env) ?_
  refine returns_bind (returns_operation env rfl h) ?_
  exact returns_update env (.retained m.clock) (by simp)

/-- INTERNAL: an agent is paired. -/
theorem returns_pairAgent {input : AgentPairing} {view : AgentBindingView}
    (howner : owner = T.ownerUid) (hclosing : m.closing = false)
    (h : m.authority.store.call T.E T.ownerUid (.pairAgent owner input 100) env .committed false =
      (store, .ok view)) :
    Returns T opens [] m (Application.pairAgent T.ownerUid owner input) ()
      { m with
        authority := { m.authority with store := store }
        flags := m.flags ++ [false]
        agentTokens := insertKey m.agentTokens view.id m.flags.length } := by
  unfold Application.pairAgent
  rw [show checkOwner T.ownerUid DirectRequestError.unauthorized owner = pure () by
    simp [checkOwner, howner]]
  refine returns_bind (returns_pure ()) ?_
  refine returns_bind (returns_loadClosing env) ?_
  rw [hclosing]
  refine returns_withLock env (by simp) ?_
  refine returns_bind (returns_loadClosing env) ?_
  rw [hclosing]
  refine returns_bind (returns_unixSeconds env) ?_
  refine returns_bind (returns_pure 100) ?_
  refine returns_bind (returns_operation env rfl h) ?_
  refine returns_withLock env (by simp) ?_
  refine returns_bind (returns_loadClosing env) ?_
  simp only [hclosing, Bool.false_eq_true, if_false]
  refine returns_withLock env (by simp) ?_
  exact returns_bind (returns_newFlag env) (returns_insertToken env _ _)

theorem returns_agentTokenLive {cell : ℕ} (h : m.flag cell = false) :
    Returns T opens H m (tokenLive (some cell) : App AgentRejection Bool) true m := by
  refine returns_bind (returns_loadFlag env cell) ?_
  rw [h]
  exact returns_pure true

/-- INTERNAL: the guard of a submission. -/
theorem returns_windowLive {window : SubmitWindow} (hclosing : m.closing = false)
    (htoken : m.flag window.token = false) (hepoch : m.revocationEpoch = window.epoch)
    (hsession : m.clock < window.sessionDeadline) (hdeadline : m.clock < window.deadline) :
    Returns T opens H m (window.live : App AgentRejection Bool) true m := by
  unfold SubmitWindow.live
  refine returns_bind (returns_loadClosing env) ?_
  rw [hclosing]
  refine returns_bind (returns_agentTokenLive env htoken) ?_
  refine returns_bind (returns_loadEpoch env) ?_
  simp only [hepoch, ne_eq, not_true_eq_false, if_false]
  refine returns_bind (returns_now env) ?_
  rw [if_neg (Nat.not_le.mpr hsession)]
  refine returns_bind (returns_now env) ?_
  rw [decide_eq_true hdeadline]
  exact returns_pure true

/-- What an agent's submission finds when it is admitted. -/
structure Submits (T : Thread) (env : Env) (m : Shared) (uid : UInt32) (groups : List UInt32)
    (input : SignedSubmission) (owner : AgentOwner) (cell session due expires : ℕ)
    (store : Store) (review : DirectReview) : Prop extends Admits m session where
  epoch : m.authority.sessionEpoch = m.revocationEpoch
  settled : m.authority.store.call T.E T.ownerUid (.expireDirect m.clock m.authority.requestDeadlines)
    env .committed false = (m.authority.store, .ok ())
  reads : ∃ s, m.authority.store.readState T.E T.ownerUid env.disk = .ok s ∧
    authenticateAgent T.E T.ownerUid s uid groups input = .ok owner
  token : lookupKey m.agentTokens owner.bindingId = some cell
  live : m.flag cell = false
  lifetime : durationAdd m.clock T.requestLifetime = some due
  ahead : m.clock < due
  wall : checkedAdd 100 (T.requestLifetime / 1000000000) = some expires
  creates : m.authority.store.call T.E T.ownerUid (.createSigned owner input 100 expires true) env
    .committed false = (store, .ok review)

variable {uid : UInt32} {groups : List UInt32} {input : SignedSubmission} {agent : AgentOwner}
variable {cell due expires : ℕ} {review : DirectReview}

/-- INTERNAL: the admission of a submission. -/
theorem returns_commitSigned (h : Submits T env m uid groups input agent cell session due
    expires store review) :
    Returns T opens [.gate] m (commitSigned T.E T.ownerUid T.requestLifetime uid groups input)
      (agent, ⟨cell, m.authority.sessionEpoch, session, due⟩, review)
      (admitting (retaining m) store (input.bindingId, input.nonce)) := by
  obtain ⟨s, hread, hauthenticate⟩ := h.reads
  have hlive : Returns T opens [.releaseGate, .gate] (retaining m)
      (SubmitWindow.live ⟨cell, m.authority.sessionEpoch, session, due⟩ :
        App AgentRejection Bool) true (retaining m) :=
    returns_windowLive env h.closing h.live h.epoch.symm h.clock h.ahead
  unfold commitSigned
  refine returns_bind (returns_adapt _ (returns_admission env h.toAdmits)) ?_
  refine returns_bind (returns_adapt _ (returns_expireRequests env h.settled)) ?_
  refine returns_bind (returns_readAuthority env) ?_
  refine returns_bind (returns_loadEpoch env) ?_
  have hepoch : (retaining m).revocationEpoch = (retaining m).authority.sessionEpoch := h.epoch.symm
  rw [if_neg (not_not.mpr hepoch)]
  refine returns_bind (returns_readState env hread) ?_
  refine returns_bind (returns_pure s) ?_
  rw [hauthenticate]
  refine returns_bind (returns_pure agent) ?_
  have htoken : Returns T opens [.gate] (retaining m) (agentToken agent.bindingId) cell
      (retaining m) := by
    unfold agentToken
    refine returns_withLock env (by simp) ?_
    refine returns_bind (returns_lookupToken env agent.bindingId) ?_
    rw [show lookupKey (retaining m).agentTokens agent.bindingId = some cell from h.token]
    exact returns_pure cell
  refine returns_bind (returns_adapt _ htoken) ?_
  refine returns_bind (returns_agentTokenLive env h.live) ?_
  refine returns_bind (returns_now env) ?_
  rw [show durationAdd (retaining m).clock T.requestLifetime = some due from h.lifetime]
  refine returns_bind (returns_pure due) ?_
  refine returns_bind (returns_unixSeconds env) ?_
  refine returns_bind (returns_pure 100) ?_
  rw [h.wall]
  refine returns_bind (returns_pure expires) ?_
  rw [show (retaining m).authority.deadline = some session from h.deadline]
  refine returns_bind (returns_pure session) ?_
  refine returns_bind (returns_withLock env (by simp) ?_) (returns_pure _)
  refine returns_bind (returns_agentTokenLive env h.live) ?_
  refine returns_bind hlive ?_
  refine returns_bind hlive ?_
  exact returns_bind (returns_provider env h.creates) (returns_pure review)

/-- INTERNAL: the launch of the review of a submission. -/
theorem returns_launchSigned {id : String} (h : Admits m session)
    (hepoch : m.authority.sessionEpoch = m.revocationEpoch) (hlive : m.flag cell = false)
    (hahead : m.clock < due)
    (hsettled : m.authority.store.call T.E T.ownerUid (.expireDirect m.clock
      (launching m id agent.bindingId due).authority.requestDeadlines) env .committed false =
      (m.authority.store, .ok ())) :
    Returns T opens [.gate] m
      (launchSigned agent ⟨cell, m.authority.sessionEpoch, session, due⟩ id) ()
      (retaining (launching m id agent.bindingId due)) := by
  have hwindow : Returns T opens [.releaseGate, .gate] (launching m id agent.bindingId due)
      (SubmitWindow.live ⟨cell, m.authority.sessionEpoch, session, due⟩ : App AgentRejection Bool)
      true (launching m id agent.bindingId due) :=
    returns_windowLive env h.closing hlive hepoch.symm h.clock hahead
  have hadmits : Admits (launching m id agent.bindingId due) session :=
    ⟨h.closing, h.clean, h.deadline, h.clock⟩
  unfold launchSigned
  refine returns_bind (returns_update env _ (by simp)) ?_
  refine returns_bind (returns_update env _ (by simp)) ?_
  have hlaunch : Returns T opens [.releaseGate, .gate] (launching m id agent.bindingId due)
      (do
        let launched ← if ← (SubmitWindow.live ⟨cell, m.authority.sessionEpoch, session, due⟩ :
          App AgentRejection Bool) then act (.port (.launch id)) else pure true
        if !launched then
          let failed ← act (.provider (.failDirectLaunch id))
          if !failed.isOk then throw .unavailable) () (launching m id agent.bindingId due) := by
    refine returns_bind hwindow ?_
    refine returns_bind (returns_port env (.launch id)) ?_
    exact returns_pure ()
  refine returns_bind (returns_withLock env (by simp) hlaunch) ?_
  refine returns_bind (returns_loadEpoch env) ?_
  have hsame : (launching m id agent.bindingId due).revocationEpoch = m.authority.sessionEpoch :=
    hepoch.symm
  rw [if_neg (not_not.mpr hsame)]
  refine returns_bind (returns_attempt (returns_admission env hadmits)) ?_
  exact returns_adapt _ (returns_expireRequests env hsettled)

/-- INTERNAL: a submission is committed and launched under the gate. -/
theorem returns_admitted (h : Submits T env m uid groups input agent cell session due
    expires store review)
    (hsettled : store.call T.E T.ownerUid (.expireDirect m.clock
      (launching (admitting (retaining m) store (input.bindingId, input.nonce)) review.id
        agent.bindingId due).authority.requestDeadlines) env .committed false = (store, .ok ())) :
    Returns T opens [] m (do
      if ← act .loadClosing then throw AgentRejection.unavailable
      withTryLock .gate .busy .unavailable do
        let (owner, window, review) ← commitSigned T.E T.ownerUid T.requestLifetime uid groups input
        launchSigned owner window review.id
        pure review.id) review.id
      (retaining (launching (admitting (retaining m) store (input.bindingId, input.nonce)) review.id
        agent.bindingId due)) := by
  refine returns_bind (returns_loadClosing env) ?_
  rw [h.closing]
  refine returns_withTryLock env (by simp) ?_
  refine returns_bind (returns_commitSigned env h) ?_
  exact returns_bind (returns_launchSigned env ⟨h.closing, h.clean, h.deadline, h.clock⟩ h.epoch
    h.live h.ahead hsettled) (returns_pure _)

/-- INTERNAL: **a submission is admitted.** -/
theorem returns_submitSigned (h : Submits T env m uid groups input agent cell session due
    expires store review)
    (hsettled : store.call T.E T.ownerUid (.expireDirect m.clock
      (launching (admitting (retaining m) store (input.bindingId, input.nonce)) review.id
        agent.bindingId due).authority.requestDeadlines) env .committed false = (store, .ok ())) :
    Returns T opens [] m (submitSigned T.E T.ownerUid T.requestLifetime uid groups input) review.id
      (retaining (launching (admitting (retaining m) store (input.bindingId, input.nonce)) review.id
        agent.bindingId due)) := by
  unfold submitSigned closingIfUnavailable
  refine returns_bind (returns_attempt (returns_admitted env h hsettled)) ?_
  exact returns_pure _

/-- INTERNAL: **a submission to a session that is over locks the provider, whatever its message.** -/
theorem comes_submitSigned (hgeneration : m.authority.generation + 1 < u64Size)
    (hclosing : m.closing = false) (hdeadline : m.authority.deadline = some session)
    (hover : session ≤ m.clock) :
    Comes T opens [] m (submitSigned T.E T.ownerUid T.requestLifetime uid groups input)
      (.provider .lock) [.gate] (revoking m) := by
  unfold submitSigned closingIfUnavailable
  refine comes_first (comes_attempt ?_)
  refine comes_bind (returns_loadClosing env) ?_
  rw [hclosing]
  refine comes_withTryLock env (by simp) (comes_first ?_)
  unfold commitSigned
  exact comes_first (comes_adapt _ (comes_admission env hgeneration hclosing hdeadline hover))

end Calls

end VaultAccess.Analysis
