import VaultAccess.Analysis.Record

/-!
# What each operation does to the state

`StateStep` lists everything an operation of the provider can hand to its store,
with the guards it checked on the way; one theorem for each operation puts it in the
list. Invariants over runs are proved from the list.
-/

set_option autoImplicit false

namespace VaultAccess.Analysis

open VaultAccess.Library VaultAccess.Model

/-- The receipt of a request. -/
def receiptOf (r : RequestRecord) : Option WriteReceipt := r.direct.bind (·.writeReceipt)

/-- Another request already holds a receipt for the same destination. -/
def Conflicts (q : RequestRecord) (effect : CreateEffect) : Prop :=
  ∃ d c, q.direct = some d ∧ d.writeReceipt.isSome = true ∧ d.review.create = some c ∧
    c.sameDestination effect = true

/-- A request that nothing is left to invalidate in. -/
def Settled (r : RequestRecord) : Prop :=
  ∀ d, r.direct = some d → r.status.isUnexecuted = true → d.executionClaimed = true

/-- The request `create_owned` appends. -/
def newRequest (E : Externals) (s : ProviderState) (uid : UInt32) (agentOwner : Option AgentOwner)
    (replayDigest : Option String) (policy : OperationPolicy) (args : List String)
    (now expires : ℕ) (random : Vector UInt8 32) : RequestRecord :=
  ⟨newRandom random, .pending, some (newRecord E uid agentOwner replayDigest
    (ownedReview agentOwner (policy.directReview E (newRandom random) args expires)) now
    s.lifecycleEpoch)⟩

/-- One change of the state and what was checked before it. Under `legit` the arguments are
also those the callers guarantee. -/
inductive StateStep (E : Externals) (ownerUid : UInt32) (env : Env) (legit : Prop)
    (s : ProviderState) : ProviderState → Prop where
  | pair (input : AgentPairing) (random : Vector UInt8 32) (binding : AgentBinding) (now : ℕ)
      (hnew : AgentBinding.new E input ownerUid random = some binding)
      (hkeys : ∀ b ∈ s.pairings, b.publicKey ≠ binding.publicKey)
      (hlabels : ∀ b ∈ s.pairings, b.status = .enabled → b.label ≠ binding.label)
      (hfresh : legit → ∀ b ∈ s.pairings, b.id ≠ binding.id) :
      StateStep E ownerUid env legit s { s with
        agentAudit := s.agentAudit ++ [binding.audit ownerUid now .paired]
        pairings := s.pairings ++ [binding] }
  | revoke (id : String) (binding : AgentBinding) (now : ℕ) (requests : List RequestRecord)
      (hfind : s.pairings.find? (·.id = id) = some binding) (henabled : binding.status = .enabled)
      (hrequests : List.Forall₂ (fun r r' => RequestStep legit r r' ∧ receiptOf r' = receiptOf r)
        s.requests requests) :
      StateStep E ownerUid env legit s { s with
        pairings := revokeFirst id s.pairings
        agentAudit := s.agentAudit ++
          [{ binding with status := .revoked : AgentBinding }.audit ownerUid now .revoked]
        requests := requests }
  | create (uid : UInt32) (agentOwner : Option AgentOwner) (replayDigest : Option String)
      (policy : OperationPolicy) (values args : List String) (now expires : ℕ)
      (random : Vector UInt8 32) (hcurrent : agentCurrent s agentOwner = true)
      (hpolicy : policy ∈ s.operations) (hargs : policy.normalizeArgs values = some args)
      (hreplay : ∀ marker, replayDigest = some marker →
        agentOwner.isSome = true ∧ validSha256 marker = true ∧ s.replayed marker = false)
      (huid : ∀ owner, agentOwner = some owner → uid = owner.uid)
      (hlegit : legit → now < expires ∧ (agentOwner = none → uid ≠ u32Max) ∧
        ∀ r ∈ s.requests, r.id ≠ newRandom random) :
      StateStep E ownerUid env legit s { s with requests := s.requests ++
        [newRequest E s uid agentOwner replayDigest policy args now expires random] }
  | updateOne (p : RequestRecord → Bool) (r r' : RequestRecord)
      (hfind : s.requests.find? p = some r) (hstep : RequestStep legit r r')
      (hguard : receiptOf r = none → receiptOf r' ≠ none → ∃ d effect, r.direct = some d ∧
        d.review.create = some effect ∧ ∀ q ∈ s.requests, q.id ≠ r.id → ¬ Conflicts q effect) :
      StateStep E ownerUid env legit s { s with requests := setFirst p r' s.requests }
  | updateAll (requests : List RequestRecord)
      (hrequests : List.Forall₂ (fun r r' => RequestStep legit r r' ∧ receiptOf r' = receiptOf r)
        s.requests requests) :
      StateStep E ownerUid env legit s { s with requests := requests }
  | invalidate (requests : List RequestRecord)
      (hrequests : List.Forall₂ (fun r r' => RequestStep legit r r' ∧ receiptOf r' = receiptOf r)
        s.requests requests)
      (hdone : ∀ r ∈ requests, Settled r) :
      StateStep E ownerUid env legit s { s with
        lifecycleEpoch := s.lifecycleEpoch + 1
        requests := requests }
  | query (marker : String) (hvalid : validSha256 marker = true)
      (hnew : s.replayed marker = false) :
      StateStep E ownerUid env legit s { s with
        queryReplayMarkers := s.queryReplayMarkers ++ [marker] }
  | provision (draft : OperationPolicyDraft) (image : ApprovedImage) (policy : OperationPolicy)
      (himage : image ∈ s.approvedImages)
      (hpolicy : OperationPolicy.fromDraft E env.disk draft image = some policy) :
      StateStep E ownerUid env legit s { s with
        operations := upsertOperation policy s.operations }
  | register (image : ApprovedImage) (hvalid : image.validateIntegrity E env.disk = true)
      (hnew : ∀ i ∈ s.approvedImages, i.id ≠ image.id) :
      StateStep E ownerUid env legit s { s with approvedImages := s.approvedImages ++ [image] }

/-! ## The arguments of callers -/

/-- The random identifier is not in use. -/
def FreshRequest (env : Env) (s : ProviderState) : Prop :=
  ∀ random, env.random = some random → ∀ r ∈ s.requests, r.id ≠ newRandom random

/-- What the callers of an operation guarantee of its arguments: a deadline in the future, a real
user, fresh random identifiers, the key identifier of a verified approval, an exit code of one
byte, and vault item identifiers with every status that claims an item. -/
def CallerArgs (env : Env) (s : ProviderState) : Op → Prop
  | .pairAgent _ _ _ =>
    ∀ random, env.random = some random → ∀ b ∈ s.pairings, b.id ≠ newRandom random
  | .createDirect owner _ now expires _ => now < expires ∧ owner ≠ u32Max ∧ FreshRequest env s
  | .createSigned _ _ now expires _ => now < expires ∧ FreshRequest env s
  | .decideDirect _ _ method _ =>
    ∀ keyId, method = some (.biometric keyId) → validSha256 keyId = true
  | .finishExecution _ status _ => status.exitInRange = true
  | .recordWrite _ item status => (∀ id, item = some id → validId id = true) ∧
    (status = .verified ∨ status = .createdUnverified → item.isSome = true)
  | .reconcileWrite _ itemId => validId itemId = true
  | _ => True

/-- A write result is recorded while its request executes, as `run_execution` does. -/
def RecordsWhileExecuting (s : ProviderState) : Op → Prop
  | .recordWrite binding _ _ =>
    ∀ d, s.direct binding.requestId = some d → d.review.status.isTerminal = false
  | _ => True

/-! ## Inversion of the operations -/

theorem handedState_eq_some {ε α : Type} (result : Except ε (Handed α)) (s' : ProviderState)
    (h : handedState result = some s') : ∃ handed, result = .ok handed ∧ handed.state = some s' := by
  cases result with
  | error e => simp [handedState] at h
  | ok handed => exact ⟨handed, rfl, h⟩

/-- INTERNAL: the record that is visible is the record of the request. -/
theorem direct_of_visible (ownerUid : UInt32) (s : ProviderState) (human : UInt32) (id : String)
    (r : RequestRecord) (d : DirectRecord) (hr : s.request id = some r)
    (hd : visibleDirect ownerUid s human id = some d) : r.direct = some d := by
  unfold visibleDirect ProviderState.direct at hd
  rw [hr, Option.filter_eq_some_iff] at hd
  exact hd.1

theorem mem_of_request (s : ProviderState) (id : String) (r : RequestRecord)
    (h : s.request id = some r) : r ∈ s.requests ∧ r.id = id := by
  refine ⟨List.mem_of_find?_eq_some h, ?_⟩
  have := List.find?_some h
  simpa using this

theorem guard_of_receipt_eq {r r' : RequestRecord} (h : receiptOf r' = receiptOf r)
    (P : Prop) : receiptOf r = none → receiptOf r' ≠ none → P := by
  intro hnone hsome
  rw [h] at hsome
  exact absurd hnone hsome

theorem receiptOf_advance {r : RequestRecord} {d : DirectRecord} (hd : r.direct = some d)
    (next : DirectStatus) (decision : DecisionOutcome) (now : ℕ) (status : RequestLifecycleStatus) :
    receiptOf ⟨r.id, status, some (d.advance next decision now)⟩ = receiptOf r := by
  simp [receiptOf, hd, DirectRecord.advance]

section Inversion

variable {E : Externals} {ownerUid : UInt32} {env : Env} {s s' : ProviderState}

/-- INTERNAL: pairing an agent. -/
theorem pairAgent_step {legit : Prop} (human : UInt32) (input : AgentPairing) (now : ℕ)
    (hargs : legit → CallerArgs env s (.pairAgent human input now))
    (h : handedState (pairAgent E ownerUid env s human input now) = some s') :
    StateStep E ownerUid env legit s s' := by
  obtain ⟨handed, hok, hs'⟩ := handedState_eq_some _ _ h
  simp only [pairAgent, checkAdministrator, bind, Except.bind, pure, Except.pure] at hok
  split at hok
  · simp at hok
  · rename_i hadmin
    split_ifs at hadmin with huid
    rw [not_not] at huid
    subst huid
    split at hok
    · rename_i random hrandom
      split at hok
      · rename_i binding hbinding
        split_ifs at hok with hconflict
        simp only [Except.ok.injEq] at hok
        rw [← hok, Option.some.injEq] at hs'
        rw [← hs']
        have hnone : ∀ b ∈ s.pairings, b.publicKey ≠ binding.publicKey ∧
            (b.status = .enabled → b.label ≠ binding.label) := by
          simpa [not_or] using hconflict
        refine .pair input random binding now hbinding (fun b hb => (hnone b hb).1)
          (fun b hb => (hnone b hb).2) ?_
        intro hlegit b hb
        have hid : binding.id = newRandom random := by
          unfold AgentBinding.new at hbinding
          split at hbinding
          · simp only at hbinding
            split_ifs at hbinding
            rw [← Option.some.inj hbinding]
          · simp at hbinding
        rw [hid]
        exact hargs hlegit random hrandom b hb
      · simp at hok
    · simp at hok

/-! ### Sweeps over all requests -/

/-- INTERNAL: a sweep is a change of every request. -/
theorem sweep_step {legit : Prop}
    (f : ℕ → RequestRecord → Except ProviderDiagnostic RequestRecord)
    (hphase : ∀ r ∈ s.requests, ∃ d, RequestPhase r d)
    (hstep : ∀ i r r' d, RequestPhase r d → f i r = .ok r' →
      RequestStep legit r r' ∧ receiptOf r' = receiptOf r)
    (requests : List RequestRecord) (h : updateRequests f 0 s.requests = .ok requests) :
    List.Forall₂ (fun r r' => RequestStep legit r r' ∧ receiptOf r' = receiptOf r)
      s.requests requests := by
  refine forall₂_imp_mem (forall₂_updateRequests f 0 s.requests requests h) ?_
  rintro r hr r' ⟨i, hi⟩
  obtain ⟨d, hd⟩ := hphase r hr
  exact hstep i r r' d hd hi

/-- INTERNAL: the expiry of an unclaimed request. -/
theorem expire_transition {legit : Prop} {r r' : RequestRecord} {d : DirectRecord}
    (hd : RequestPhase r d) (decision : DecisionOutcome) (now : ℕ)
    (hclaimed : d.executionClaimed = false)
    (h : r.transition .expired decision now = .ok r') :
    RequestStep legit r r' ∧ receiptOf r' = receiptOf r := by
  obtain ⟨hlegal, rfl⟩ := transition_ok r r' .expired decision now d hd.direct h
  have hstatus : d.review.status = .pending ∨ d.review.status = .approved := by
    unfold DirectRecord.legal at hlegal
    cases hs : d.review.status <;> simp [hs] at hlegal ⊢
  exact ⟨.change d _ hd.direct (.expire d decision now hclaimed hstatus),
    receiptOf_advance hd.direct _ _ _ _⟩

/-- INTERNAL: the failure of a claimed request. -/
theorem fail_transition {legit : Prop} {r r' : RequestRecord} {d : DirectRecord}
    (hd : RequestPhase r d) (reason : DirectFailure) (decision : DecisionOutcome) (now : ℕ)
    (hclaimed : d.executionClaimed = true)
    (h : r.transition (.failed reason) decision now = .ok r') :
    RequestStep legit r r' ∧ receiptOf r' = receiptOf r := by
  obtain ⟨hlegal, rfl⟩ := transition_ok r r' (.failed reason) decision now d hd.direct h
  have hstatus : d.review.status = .approved ∨ d.review.status = .running := by
    unfold DirectRecord.legal at hlegal
    cases hs : d.review.status <;> simp [hs] at hlegal ⊢
  exact ⟨.change d _ hd.direct (.fail d reason decision now hclaimed hstatus),
    receiptOf_advance hd.direct _ _ _ _⟩

/-- INTERNAL: a request that a sweep passes over. -/
theorem same_transition {legit : Prop} {r r' : RequestRecord}
    (h : (Except.ok r : Except ProviderDiagnostic RequestRecord) = .ok r') :
    RequestStep legit r r' ∧ receiptOf r' = receiptOf r := by
  rw [Except.ok.injEq] at h
  rw [← h]
  exact ⟨.same, rfl⟩

/-- INTERNAL: what a revocation does to one request. -/
theorem revokeRequest_step {legit : Prop} (id : String) (now i : ℕ) (r r' : RequestRecord)
    (d : DirectRecord) (hd : RequestPhase r d) (h : revokeRequest id now i r = .ok r') :
    RequestStep legit r r' ∧ receiptOf r' = receiptOf r := by
  simp only [revokeRequest, hd.direct] at h
  split_ifs at h with hcond
  · simp only [Bool.and_eq_true, Bool.not_eq_true'] at hcond
    exact expire_transition hd .invalidated now hcond.1.1 h
  · exact same_transition h

/-- INTERNAL: what expiry does to one request. -/
theorem expireRequest_step {legit : Prop} (now : ℕ) (deadlines : String → Option ℕ) (i : ℕ)
    (r r' : RequestRecord) (d : DirectRecord) (hd : RequestPhase r d)
    (h : expireRequest env now deadlines i r = .ok r') :
    RequestStep legit r r' ∧ receiptOf r' = receiptOf r := by
  unfold expireRequest at h
  split_ifs at h with hcond
  · split at h
    · simp at h
    · rename_i wall _
      simp only [expires, hd.direct, Option.any_some, Bool.and_eq_true, Bool.not_eq_true'] at hcond
      exact expire_transition hd .expired wall hcond.1.1 h
  · exact same_transition h

/-- INTERNAL: a running request is claimed. -/
theorem executing_eq {r : RequestRecord} {d : DirectRecord} (hd : RequestPhase r d) :
    (d.executionClaimed || decide (r.status = .running)) = d.executionClaimed := by
  cases hclaimed : d.executionClaimed with
  | true => rfl
  | false =>
    rw [Bool.false_or, decide_eq_false_iff_not]
    intro hrunning
    have hexecuted : d.review.status.isExecuted = true := by
      have hstatus := hd.status
      rw [hrunning] at hstatus
      cases hs : d.review.status with
      | running => rfl
      | pending => simp [hs, DirectStatus.lifecycle] at hstatus
      | approved => simp [hs, DirectStatus.lifecycle] at hstatus
      | denied => simp [hs, DirectStatus.lifecycle] at hstatus
      | expired => simp [hs, DirectStatus.lifecycle] at hstatus
      | completed exitCode => rfl
      | failed reason => rfl
    rw [hd.phase.executed hexecuted] at hclaimed
    simp at hclaimed

/-- INTERNAL: a terminal transition settles a request. -/
theorem settled_transition {r r' : RequestRecord} {d : DirectRecord} (hd : r.direct = some d)
    (next : DirectStatus) (hnext : next.isTerminal = true) (decision : DecisionOutcome) (now : ℕ)
    (h : r.transition next decision now = .ok r') : Settled r' := by
  obtain ⟨-, rfl⟩ := transition_ok r r' next decision now d hd h
  intro d' _ hun
  cases next <;>
    simp [DirectRecord.advance, DirectStatus.lifecycle, DirectStatus.isTerminal,
      RequestLifecycleStatus.isUnexecuted] at hun hnext

/-- INTERNAL: invalidation settles every request. -/
theorem invalidateRequest_step {legit : Prop} (recovered : Bool) (i : ℕ) (r r' : RequestRecord)
    (d : DirectRecord) (hd : RequestPhase r d)
    (h : invalidateRequest env recovered i r = .ok r') :
    (RequestStep legit r r' ∧ receiptOf r' = receiptOf r) ∧ Settled r' := by
  simp only [invalidateRequest, hd.direct, executing_eq hd] at h
  cases hunexecuted : r.status.isUnexecuted with
  | false =>
    simp only [hunexecuted, Bool.not_false, if_true] at h
    refine ⟨same_transition h, ?_⟩
    rw [Except.ok.injEq] at h
    subst h
    intro d' _ hun
    rw [hunexecuted] at hun
    simp at hun
  | true =>
    simp only [hunexecuted, Bool.not_true, Bool.false_eq_true, if_false] at h
    cases hclaimed : d.executionClaimed with
    | false =>
      simp only [hclaimed, Bool.and_false, Bool.false_eq_true, if_false] at h
      split at h
      · simp at h
      · rename_i now _
        exact ⟨expire_transition hd _ now hclaimed h,
          settled_transition hd.direct .expired rfl _ now h⟩
    | true =>
      simp only [hclaimed, Bool.and_true, if_true] at h
      cases recovered with
      | false =>
        refine ⟨same_transition h, ?_⟩
        simp only [Bool.not_false, if_true, Except.ok.injEq] at h
        subst h
        intro d' hd' _
        have heq : d' = d := by rw [hd.direct, Option.some.injEq] at hd'; exact hd'.symm
        rw [heq, hclaimed]
      | true =>
        simp only [Bool.not_true, Bool.false_eq_true, if_false] at h
        split at h
        · simp at h
        · rename_i now _
          exact ⟨fail_transition hd .observationLost _ now hclaimed h,
            settled_transition hd.direct (.failed .observationLost) rfl _ now h⟩

/-- INTERNAL: invalidation, for a lock and for a recovery. -/
theorem invalidate_step {legit : Prop} (recovered : Bool)
    (hphase : ∀ r ∈ s.requests, ∃ d, RequestPhase r d)
    (h : handedState (invalidate env s recovered) = some s') :
    StateStep E ownerUid env legit s s' := by
  obtain ⟨handed, hok, hs'⟩ := handedState_eq_some _ _ h
  simp only [invalidate, bind, Except.bind, pure, Except.pure] at hok
  split at hok
  · rename_i epoch hepoch
    split at hok
    · simp at hok
    · rename_i requests hrequests
      simp only [Except.ok.injEq] at hok
      rw [← hok, Option.some.injEq] at hs'
      have hnext : epoch = s.lifecycleEpoch + 1 := by
        unfold checkedAdd at hepoch
        split_ifs at hepoch
        exact (Option.some.inj hepoch).symm
      rw [← hs', hnext]
      refine .invalidate requests (sweep_step _ hphase (fun i r r' d hd hr =>
        (invalidateRequest_step recovered i r r' d hd hr).1) requests hrequests) ?_
      intro r' hr'
      obtain ⟨r, hr, i, hi⟩ := exists_left_of_forall₂
        (forall₂_updateRequests _ 0 s.requests requests hrequests) r' hr'
      obtain ⟨d, hd⟩ := hphase r hr
      exact (@invalidateRequest_step env legit recovered i r r' d hd hi).2
  · simp at hok

end Inversion

end VaultAccess.Analysis
