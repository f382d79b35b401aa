import VaultAccess.Analysis.Operations

/-!
# Inversion of the operations

One theorem for each operation of the provider that changes single requests,
agents, markers, policies or images, and the theorem that covers them all: what
an operation hands to the store is a listed change of the state it read.
-/

set_option autoImplicit false

namespace VaultAccess.Analysis

open VaultAccess.Library VaultAccess.Model

section Inversion

variable {E : Externals} {ownerUid : UInt32} {env : Env} {s s' : ProviderState}

/-! ## Single requests -/

theorem setRequest_step {legit : Prop} (id : String) {r r' : RequestRecord}
    (hr : s.request id = some r)
    (h : RequestStep legit r r' ∧ receiptOf r' = receiptOf r) :
    StateStep E ownerUid env legit s (s.setRequest id r') :=
  .updateOne (·.id = id) r r' hr h.1 (guard_of_receipt_eq h.2 _)

/-- INTERNAL: the request that is found is in phase. -/
theorem phase_of_request (hphase : ∀ r ∈ s.requests, ∃ d, RequestPhase r d) {id : String}
    {r : RequestRecord} {d : DirectRecord} (hr : s.request id = some r) (hd : r.direct = some d) :
    RequestPhase r d := by
  obtain ⟨d', hd'⟩ := hphase r (mem_of_request s id r hr).1
  have heq : d' = d := by
    have hdirect := hd'.direct
    rw [hd, Option.some.injEq] at hdirect
    exact hdirect.symm
  exact heq ▸ hd'

theorem mapError_eq_ok {ε ε' α : Type} (f : ε → ε') (x : Except ε α) (a : α)
    (h : x.mapError f = .ok a) : x = .ok a := by
  cases x with
  | error e => simp [Except.mapError] at h
  | ok b => simpa [Except.mapError] using h

/-- INTERNAL: revoking an agent. -/
theorem revokeAgent_step {legit : Prop} (human : UInt32) (id : String) (now : ℕ)
    (hphase : ∀ r ∈ s.requests, ∃ d, RequestPhase r d)
    (h : handedState (revokeAgent ownerUid s human id now) = some s') :
    StateStep E ownerUid env legit s s' := by
  obtain ⟨handed, hok, hs'⟩ := handedState_eq_some _ _ h
  simp only [revokeAgent, checkAdministrator, bind, Except.bind, pure, Except.pure] at hok
  split at hok
  · simp at hok
  · rename_i hadmin
    split_ifs at hadmin with huid
    rw [not_not] at huid
    subst huid
    split at hok
    · rename_i binding hbinding
      split_ifs at hok with henabled
      · split at hok
        · simp at hok
        · rename_i requests hrequests
          have hupdate := mapError_eq_ok _ _ _ hrequests
          simp only [Except.ok.injEq] at hok
          rw [← hok, Option.some.injEq] at hs'
          rw [← hs']
          exact .revoke id binding now requests hbinding henabled (sweep_step _ hphase
            (fun i r r' d hd hr => revokeRequest_step id now i r r' d hd hr) requests hupdate)
      · simp only [Except.ok.injEq] at hok
        rw [← hok] at hs'
        simp at hs'
    · simp at hok

/-- INTERNAL: the marker of a message is a hexadecimal digest. -/
theorem validSha256_replayMarker (bindingId nonce marker : String)
    (h : replayMarker E bindingId nonce = .ok marker) : validSha256 marker = true := by
  simp only [replayMarker, bind, Except.bind, pure, Except.pure] at h
  split at h
  · simp at h
  · split at h
    · simp at h
    · rw [Except.ok.injEq] at h
      rw [← h]
      exact validSha256_hexSha256 E _

/-- INTERNAL: creating a request for any owner. -/
theorem createOwned_step {legit : Prop} (uid : UInt32) (agentOwner : Option AgentOwner)
    (replayDigest : Option String) (input : DirectSubmission) (now expires : ℕ) (authorized : Bool)
    (hreplay : ∀ marker, replayDigest = some marker →
      agentOwner.isSome = true ∧ validSha256 marker = true ∧ s.replayed marker = false)
    (huid : ∀ owner, agentOwner = some owner → uid = owner.uid)
    (hlegit : legit → now < expires ∧ (agentOwner = none → uid ≠ u32Max) ∧ FreshRequest env s)
    (h : handedState (createOwned E env s uid agentOwner replayDigest input now expires authorized) =
      some s') :
    StateStep E ownerUid env legit s s' := by
  obtain ⟨handed, hok, hs'⟩ := handedState_eq_some _ _ h
  simp only [createOwned, bind, Except.bind, pure, Except.pure] at hok
  split at hok
  · simp at hok
  split at hok
  · simp at hok
  rename_i hagent
  split at hok
  · rename_i policy hpolicy
    split at hok
    · simp at hok
    split at hok
    · rename_i args hargs
      split at hok
      · simp at hok
      split at hok
      · rename_i random hrandom
        simp only [Except.ok.injEq] at hok
        rw [← hok, Option.some.injEq] at hs'
        rw [← hs']
        refine .create uid agentOwner replayDigest policy input.values args now expires random
          (by simpa using hagent) (List.mem_of_find?_eq_some hpolicy) hargs hreplay huid ?_
        intro hl
        obtain ⟨hnow, huser, hfresh⟩ := hlegit hl
        exact ⟨hnow, huser, hfresh random hrandom⟩
      · simp at hok
    · simp at hok
  · simp at hok

/-- INTERNAL: an owner's own request. -/
theorem createDirect_step {legit : Prop} (owner : UInt32) (input : DirectSubmission)
    (now expires : ℕ) (authorized : Bool)
    (hargs : legit → CallerArgs env s (.createDirect owner input now expires authorized))
    (h : handedState (createDirect E env s owner input now expires authorized) = some s') :
    StateStep E ownerUid env legit s s' := by
  refine createOwned_step owner none none input now expires authorized (by simp) (by simp) ?_ h
  intro hlegit
  obtain ⟨hnow, huser, hfresh⟩ := hargs hlegit
  exact ⟨hnow, fun _ => huser, hfresh⟩

/-- INTERNAL: an agent's signed request. -/
theorem createSigned_step {legit : Prop} (owner : AgentOwner) (input : SignedSubmission)
    (now expires : ℕ) (authorized : Bool)
    (hargs : legit → CallerArgs env s (.createSigned owner input now expires authorized))
    (h : handedState (createSigned E env s owner input now expires authorized) = some s') :
    StateStep E ownerUid env legit s s' := by
  obtain ⟨handed, hok, hs'⟩ := handedState_eq_some _ _ h
  simp only [createSigned, SignedSubmission.replayDigest, bind, Except.bind] at hok
  split at hok
  · simp at hok
  split at hok
  · simp at hok
  rename_i marker hmarker
  split at hmarker
  · simp at hmarker
  split_ifs at hok with hreplayed
  have hcreated := mapError_eq_ok _ _ _ hok
  refine createOwned_step owner.uid (some owner) (some marker) _ now expires authorized ?_ ?_ ?_
    (by rw [hcreated]; exact hs')
  · intro marker' heq
    rw [Option.some.injEq] at heq
    subst heq
    exact ⟨rfl, validSha256_replayMarker _ _ _ hmarker, by simpa using hreplayed⟩
  · intro owner' heq
    rw [Option.some.injEq] at heq
    rw [heq]
  · intro hlegit
    obtain ⟨hnow, hfresh⟩ := hargs hlegit
    exact ⟨hnow, by simp, hfresh⟩

/-- INTERNAL: consuming a status query. -/
theorem consumeStatusQuery_step {legit : Prop} (owner : AgentOwner) (query : SignedStatusQuery)
    (h : handedState (consumeStatusQuery E s owner query) = some s') :
    StateStep E ownerUid env legit s s' := by
  obtain ⟨handed, hok, hs'⟩ := handedState_eq_some _ _ h
  simp only [consumeStatusQuery, SignedStatusQuery.replayDigest, bind, Except.bind, pure,
    Except.pure] at hok
  split at hok
  · simp at hok
  split at hok
  · simp at hok
  split at hok
  · simp at hok
  rename_i marker hmarker
  split at hmarker
  · simp at hmarker
  split_ifs at hok with hreplayed
  simp only [Except.ok.injEq] at hok
  rw [← hok, Option.some.injEq] at hs'
  rw [← hs']
  exact .query marker (validSha256_replayMarker _ _ _ hmarker) (by simpa using hreplayed)

/-- INTERNAL: the expiry of requests past their deadlines. -/
theorem expireDirect_step {legit : Prop} (now : ℕ) (deadlines : String → Option ℕ)
    (hphase : ∀ r ∈ s.requests, ∃ d, RequestPhase r d)
    (h : handedState (expireDirect env s now deadlines) = some s') :
    StateStep E ownerUid env legit s s' := by
  obtain ⟨handed, hok, hs'⟩ := handedState_eq_some _ _ h
  simp only [expireDirect, bind, Except.bind, pure, Except.pure] at hok
  split at hok
  · simp at hok
  rename_i requests hrequests
  simp only [Except.ok.injEq] at hok
  rw [← hok] at hs'
  split_ifs at hs'
  rw [Option.some.injEq] at hs'
  rw [← hs']
  exact .updateAll requests (sweep_step _ hphase
    (fun i r r' d hd hr => expireRequest_step now deadlines i r r' d hd hr) requests hrequests)

/-- INTERNAL: a review that could not be shown. -/
theorem failDirectLaunch_step {legit : Prop} (id : String)
    (hphase : ∀ r ∈ s.requests, ∃ d, RequestPhase r d)
    (h : handedState (failDirectLaunch env s id) = some s') :
    StateStep E ownerUid env legit s s' := by
  obtain ⟨handed, hok, hs'⟩ := handedState_eq_some _ _ h
  simp only [failDirectLaunch, bind, Except.bind, pure, Except.pure] at hok
  split at hok
  · simp only [Except.ok.injEq] at hok
    rw [← hok] at hs'
    simp at hs'
  rename_i r hr
  split at hok
  · simp at hok
  split at hok
  · simp at hok
  rename_i now _ _ r' hr'
  simp only [Except.ok.injEq] at hok
  rw [← hok, Option.some.injEq] at hs'
  rw [← hs']
  obtain ⟨d, hd⟩ := hphase r (List.mem_of_find?_eq_some hr)
  have hpending : r.status = .pending := by
    have := List.find?_some hr
    simp only [Bool.and_eq_true, decide_eq_true_eq] at this
    exact this.2
  have hunclaimed : d.executionClaimed = false := by
    by_contra hclaimed
    have hunclaimable := hd.phase.claimed (by simpa using hclaimed)
    have hstatus := hd.status
    rw [hpending] at hstatus
    cases hs : d.review.status <;>
      simp [hs, DirectStatus.unclaimable, DirectStatus.lifecycle] at hunclaimable hstatus
  have hstep := @expire_transition legit _ _ _ hd .reviewUnavailable now hunclaimed hr'
  exact .updateOne _ r r' hr hstep.1 (guard_of_receipt_eq hstep.2 _)

/-- INTERNAL: a review is prepared for a pending request. -/
theorem pending_of_prepareDirect (human : UInt32) (id : String) (binding : ApprovalBinding)
    (h : prepareDirect ownerUid s human id = .ok binding) :
    ∃ r d, s.request id = some r ∧ r.direct = some d ∧ d.review.status = .pending := by
  simp only [prepareDirect, bind, Except.bind, pure, Except.pure] at h
  split at h
  · rename_i d hd
    split at h
    · simp at h
    split at h
    · simp at h
    rename_i hstatus
    rw [not_not] at hstatus
    have hvisible := hd
    unfold visibleDirect ProviderState.direct at hvisible
    rw [Option.filter_eq_some_iff, Option.bind_eq_some_iff] at hvisible
    obtain ⟨⟨r, hr, hdirect⟩, -⟩ := hvisible
    exact ⟨r, d, hr, hdirect, hstatus⟩
  · simp at h

/-- INTERNAL: a decision about a pending request. -/
theorem decideDirect_step {legit : Prop} (binding : ApprovalBinding) (approve : Bool)
    (method : Option ApprovalMethod) (now : ℕ)
    (hargs : legit → CallerArgs env s (.decideDirect binding approve method now))
    (h : handedState (decideDirect ownerUid s binding approve method now) = some s') :
    StateStep E ownerUid env legit s s' := by
  obtain ⟨handed, hok, hs'⟩ := handedState_eq_some _ _ h
  simp only [decideDirect, bind, Except.bind, pure, Except.pure] at hok
  split at hok
  · simp at hok
  rename_i prepared hprepared
  split at hok
  · simp at hok
  split at hok
  · rename_i r hr
    split at hok
    · simp at hok
    rename_i hmethod
    split at hok
    · simp at hok
    rename_i r' hr'
    simp only [Except.ok.injEq] at hok
    rw [← hok, Option.some.injEq] at hs'
    rw [← hs']
    obtain ⟨r₀, d, hr₀, hd, hpending⟩ := pending_of_prepareDirect _ _ _ hprepared
    have hrr : r₀ = r := by rw [hr, Option.some.injEq] at hr₀; exact hr₀.symm
    subst hrr
    obtain ⟨-, rfl⟩ := transition_ok _ _ _ _ _ d hd (mapError_eq_ok _ _ _ hr')
    have happrove : method.isSome = true → approve = true := by simpa using hmethod
    have hstep : DirectStep legit d (decided d approve method now) :=
      .decide d approve method now hpending happrove hargs
    have hreceipt : receiptOf ⟨r₀.id, (decided d approve method now).review.status.lifecycle,
        some (decided d approve method now)⟩ = receiptOf r₀ := by
      simp only [receiptOf, hd, Option.bind_some]
      exact decided_receipt d approve method now
    have hset := @setRequest_step E ownerUid env _ _ binding.requestId _ _ hr
      ⟨.change d _ hd hstep, hreceipt⟩
    cases method with
    | none => exact hset
    | some m => exact hset
  · simp at hok

/-- INTERNAL: the cancellation of an execution that was not claimed. -/
theorem cancelUnclaimedExecution_step {legit : Prop} (owner : UInt32) (id : String)
    (hphase : ∀ r ∈ s.requests, ∃ d, RequestPhase r d)
    (h : handedState (cancelUnclaimedExecution ownerUid env s owner id) = some s') :
    StateStep E ownerUid env legit s s' := by
  obtain ⟨handed, hok, hs'⟩ := handedState_eq_some _ _ h
  simp only [cancelUnclaimedExecution, bind, Except.bind, pure, Except.pure] at hok
  split at hok
  · rename_i r hr
    split at hok
    · rename_i d hvisible
      have hd := direct_of_visible ownerUid s owner id r d hr hvisible
      split at hok
      · simp at hok
      rename_i hcond
      split at hok
      · rename_i now _
        split at hok
        · simp at hok
        rename_i r' hr'
        simp only [Except.ok.injEq] at hok
        rw [← hok, Option.some.injEq] at hs'
        rw [← hs']
        have hunclaimed : d.executionClaimed = false := by
          rw [Bool.or_eq_true, not_or] at hcond
          simpa using hcond.2
        exact setRequest_step id hr (expire_transition (phase_of_request hphase hr hd) _ now
          hunclaimed (mapError_eq_ok _ _ _ hr'))
      · simp at hok
    · simp at hok
  · simp at hok

/-- INTERNAL: what a successful claim checked, and what it hands over. -/
theorem claimExecution_ok (owner : UInt32) (id : String) (handed : Handed ApprovalBinding)
    (h : claimExecution ownerUid s owner id = .ok handed) :
    ∃ r d, s.request id = some r ∧ r.direct = some d ∧ agentCurrent s d.agentOwner = true ∧
      d.review.status = .approved ∧ d.executionClaimed = false ∧
      d.lifecycleEpoch = s.lifecycleEpoch ∧ d.approval = some d.approvalBinding ∧
      handed = ⟨d.approvalBinding, some (s.setRequest id
        { r with direct := some { d with executionClaimed := true } })⟩ := by
  simp only [claimExecution, bind, Except.bind, pure, Except.pure] at h
  split at h
  · simp at h
  rename_i hcurrent
  split at h
  · rename_i r hr
    split at h
    · rename_i d hvisible
      have hd := direct_of_visible ownerUid s owner id r d hr hvisible
      split at h
      · simp at h
      rename_i hstatus
      split at h
      · simp at h
      rename_i hbinding
      rw [Except.ok.injEq] at h
      simp only [ProviderState.direct, hr, Option.bind_some, hd] at hcurrent
      simp only [ne_eq, Bool.or_eq_true, decide_eq_true_eq, not_or, not_not,
        Bool.not_eq_true] at hstatus hbinding
      exact ⟨r, d, hr, hd, by simpa using hcurrent, hstatus.1.2, hstatus.2, hbinding.1, hbinding.2,
        h.symm⟩
    · simp at h
  · simp at h

/-- INTERNAL: the claim of an approved request. -/
theorem claimExecution_step {legit : Prop} (owner : UInt32) (id : String)
    (hphase : ∀ r ∈ s.requests, ∃ d, RequestPhase r d)
    (h : handedState (claimExecution ownerUid s owner id) = some s') :
    StateStep E ownerUid env legit s s' := by
  obtain ⟨handed, hok, hs'⟩ := handedState_eq_some _ _ h
  obtain ⟨r, d, hr, hd, -, hstatus, hclaimed, -, -, rfl⟩ := claimExecution_ok owner id handed hok
  rw [Option.some.injEq] at hs'
  rw [← hs']
  have hp := phase_of_request hphase hr hd
  have hlifecycle : r.status = ({ d with executionClaimed := true } : DirectRecord).review.status.lifecycle :=
    hp.status
  rw [hlifecycle]
  refine setRequest_step id hr ⟨.change d _ hd (.claim d hstatus hclaimed), ?_⟩
  simp [receiptOf, hd]

/-- INTERNAL: the start of a claimed execution. -/
theorem executionStarted_step {legit : Prop} (binding : ApprovalBinding)
    (h : handedState (executionStarted env s binding) = some s') :
    StateStep E ownerUid env legit s s' := by
  obtain ⟨handed, hok, hs'⟩ := handedState_eq_some _ _ h
  simp only [executionStarted, bind, Except.bind, pure, Except.pure] at hok
  split at hok
  · rename_i r hr
    split at hok
    · rename_i d hd
      split at hok
      · simp at hok
      rename_i hcond
      split at hok
      · rename_i now _
        split at hok
        · simp at hok
        rename_i r' hr'
        simp only [Except.ok.injEq] at hok
        rw [← hok, Option.some.injEq] at hs'
        rw [← hs']
        simp only [ne_eq, Bool.or_eq_true, Bool.not_eq_true', decide_eq_true_eq, not_or, not_not,
          Bool.not_eq_false] at hcond
        obtain ⟨-, rfl⟩ := transition_ok _ _ _ _ _ d hd (mapError_eq_ok _ _ _ hr')
        exact setRequest_step _ hr ⟨.change d _ hd (.start d _ now hcond.1.1 hcond.2),
          receiptOf_advance hd _ _ _ _⟩
      · simp at hok
    · simp at hok
  · simp at hok

/-- INTERNAL: the end of a claimed execution. -/
theorem finishExecution_step {legit : Prop} (binding : ApprovalBinding) (status : DirectStatus)
    (cleanup : CleanupEvidence) (hphase : ∀ r ∈ s.requests, ∃ d, RequestPhase r d)
    (hargs : legit → CallerArgs env s (.finishExecution binding status cleanup))
    (h : handedState (finishExecution env s binding status cleanup) = some s') :
    StateStep E ownerUid env legit s s' := by
  obtain ⟨handed, hok, hs'⟩ := handedState_eq_some _ _ h
  simp only [finishExecution, bind, Except.bind, pure, Except.pure] at hok
  split at hok
  · simp at hok
  rename_i hresult
  split at hok
  · rename_i r hr
    split at hok
    · rename_i d hd
      split at hok
      · simp at hok
      rename_i hcond
      split at hok
      · rename_i now _
        split at hok
        · simp at hok
        rename_i r' hr'
        simp only [Except.ok.injEq] at hok
        rw [← hok, Option.some.injEq] at hs'
        rw [← hs']
        have hclaimed : d.executionClaimed = true := by
          simp only [Bool.or_eq_true, not_or] at hcond
          simpa using hcond.1.1.1.1
        have hchange := mapError_eq_ok _ _ _ hr'
        cases status with
        | completed exitCode =>
          obtain ⟨hlegal, rfl⟩ := transition_ok _ _ _ _ _ d hd hchange
          have hrunning : d.review.status = .running := by
            cases hs : d.review.status <;> simp [DirectRecord.legal, hs] at hlegal ⊢
          exact setRequest_step _ hr ⟨.change d _ hd (.complete d exitCode _ now hclaimed hrunning
            hargs), receiptOf_advance hd _ _ _ _⟩
        | failed reason =>
          exact setRequest_step _ hr (fail_transition (phase_of_request hphase hr hd) reason _ now
            hclaimed hchange)
        | pending => simp [DirectStatus.isCompleted, DirectStatus.isFailed] at hresult
        | approved => simp [DirectStatus.isCompleted, DirectStatus.isFailed] at hresult
        | denied => simp [DirectStatus.isCompleted, DirectStatus.isFailed] at hresult
        | expired => simp [DirectStatus.isCompleted, DirectStatus.isFailed] at hresult
        | running => simp [DirectStatus.isCompleted, DirectStatus.isFailed] at hresult
      · simp at hok
    · simp at hok
  · simp at hok

/-- INTERNAL: what a successful `begin_write` checked, and what it hands over. -/
theorem beginWrite_ok (binding : ApprovalBinding) (handed : Handed Unit)
    (h : beginWrite s binding = .ok handed) :
    ∃ r d effect, s.request binding.requestId = some r ∧ r.direct = some d ∧
      d.executionClaimed = true ∧ d.review.status = .running ∧ d.approval = some binding ∧
      d.writeReceipt = none ∧ d.review.create = some effect ∧
      (∀ q ∈ s.requests, q.id ≠ r.id → ¬ Conflicts q effect) ∧
      handed = ⟨(), some (s.setRequest binding.requestId { r with direct := some { d with
        writeReceipt := some ⟨binding.requestId, none, .uncertain⟩ } })⟩ := by
  simp only [beginWrite, bind, Except.bind, pure, Except.pure] at h
  split at h
  · rename_i r hr
    split at h
    · rename_i d hd
      split at h
      · simp at h
      rename_i hcond
      split at h
      · rename_i effect heffect
        split at h
        · simp at h
        rename_i hconflict
        rw [Except.ok.injEq] at h
        simp only [ne_eq, Bool.or_eq_true, Bool.not_eq_true', decide_eq_true_eq, not_or, not_not,
          Bool.not_eq_false, Option.isSome_iff_ne_none] at hcond
        refine ⟨r, d, effect, hr, hd, hcond.1.1.1, hcond.1.1.2, hcond.1.2, hcond.2, heffect, ?_,
          h.symm⟩
        rintro q hq hid ⟨d', c, hd', hreceipt, hcreate, hsame⟩
        refine hconflict (List.any_eq_true.mpr ⟨q, List.mem_filter.mpr ⟨hq, ?_⟩, ?_⟩)
        · rw [(mem_of_request s _ r hr).2] at hid
          simpa using hid
        · simp [hd', hreceipt, hcreate, hsame]
      · simp at h
    · simp at h
  · simp at h

/-- INTERNAL: the receipt before a secret is created. -/
theorem beginWrite_step {legit : Prop} (binding : ApprovalBinding)
    (hphase : ∀ r ∈ s.requests, ∃ d, RequestPhase r d)
    (h : handedState (beginWrite s binding) = some s') : StateStep E ownerUid env legit s s' := by
  obtain ⟨handed, hok, hs'⟩ := handedState_eq_some _ _ h
  obtain ⟨r, d, effect, hr, hd, hclaimed, hstatus, -, hreceipt, heffect, hexcl, rfl⟩ :=
    beginWrite_ok binding handed hok
  rw [Option.some.injEq] at hs'
  rw [← hs']
  have hp := phase_of_request hphase hr hd
  have hid : binding.requestId = d.review.id :=
    (hp.reviewId.trans (mem_of_request s _ r hr).2).symm
  have hstep : DirectStep legit d { d with
      writeReceipt := some ⟨binding.requestId, none, .uncertain⟩ } := by
    rw [hid]
    exact .begin d hclaimed hstatus hreceipt (by rw [heffect]; rfl)
  rw [show r.status = ({ d with writeReceipt := some ⟨binding.requestId, none, .uncertain⟩ } :
    DirectRecord).review.status.lifecycle from hp.status]
  exact .updateOne (·.id = binding.requestId) r _ hr (.change d _ hd hstep)
    fun _ _ => ⟨d, effect, hd, heffect, hexcl⟩

/-- INTERNAL: what a successful `record_write` checked, and what it hands over. -/
theorem recordWrite_ok (binding : ApprovalBinding) (item : Option String) (status : WriteStatus)
    (handed : Handed Unit) (h : recordWrite s binding item status = .ok handed) :
    ∃ r d receipt, s.request binding.requestId = some r ∧ r.direct = some d ∧
      d.writeReceipt = some receipt ∧ (∀ old, receipt.itemId = some old → item = some old) ∧
      handed = ⟨(), some (s.setRequest binding.requestId { r with direct := some { d with
        writeReceipt := some { receipt with itemId := item, status := status } } })⟩ := by
  simp only [recordWrite, pure, Except.pure] at h
  split at h
  · rename_i r hr
    split at h
    · rename_i d hd
      split at h
      · rename_i receipt hreceipt
        split at h
        · simp at h
        rename_i hitem
        rw [Except.ok.injEq] at h
        refine ⟨r, d, receipt, hr, hd, hreceipt, ?_, h.symm⟩
        intro old hold
        simp only [hold, Option.any_some, decide_eq_true_eq, ne_eq, not_not] at hitem
        exact hitem.symm
      · simp at h
    · simp at h
  · simp at h

/-- INTERNAL: the result of a creation. -/
theorem recordWrite_step {legit : Prop} (binding : ApprovalBinding) (item : Option String)
    (status : WriteStatus) (hphase : ∀ r ∈ s.requests, ∃ d, RequestPhase r d)
    (hargs : legit → CallerArgs env s (.recordWrite binding item status) ∧
      RecordsWhileExecuting s (.recordWrite binding item status))
    (h : handedState (recordWrite s binding item status) = some s') :
    StateStep E ownerUid env legit s s' := by
  obtain ⟨handed, hok, hs'⟩ := handedState_eq_some _ _ h
  obtain ⟨r, d, receipt, hr, hd, hreceipt, hitem, rfl⟩ :=
    recordWrite_ok binding item status handed hok
  rw [Option.some.injEq] at hs'
  rw [← hs']
  have hp := phase_of_request hphase hr hd
  have hstep : DirectStep legit d { d with
      writeReceipt := some { receipt with itemId := item, status := status } } := by
    refine .record d receipt item status hreceipt hitem ?_
    intro hlegit
    obtain ⟨⟨hvalid, hstatus⟩, hexecuting⟩ := hargs hlegit
    exact ⟨hvalid, hstatus, hexecuting d (by simp [ProviderState.direct, hr, hd])⟩
  rw [show r.status = ({ d with writeReceipt := some { receipt with itemId := item, status := status } } :
    DirectRecord).review.status.lifecycle from hp.status]
  refine .updateOne (·.id = binding.requestId) r _ hr (.change d _ hd hstep) ?_
  intro hnone
  simp [receiptOf, hd, hreceipt] at hnone

/-- INTERNAL: the reconciliation of an uncertain creation. -/
theorem reconcileWrite_step {legit : Prop} (id itemId : String)
    (hphase : ∀ r ∈ s.requests, ∃ d, RequestPhase r d)
    (hargs : legit → CallerArgs env s (.reconcileWrite id itemId))
    (h : handedState (reconcileWrite env s id itemId) = some s') :
    StateStep E ownerUid env legit s s' := by
  obtain ⟨handed, hok, hs'⟩ := handedState_eq_some _ _ h
  simp only [reconcileWrite, bind, Except.bind, pure, Except.pure] at hok
  split at hok
  · rename_i r hr
    split at hok
    · rename_i d hd
      split at hok
      · simp at hok
      rename_i hterminal
      split at hok
      · rename_i receipt hreceipt
        split at hok
        · simp at hok
        rename_i hitem
        split at hok
        · simp only [Except.ok.injEq] at hok
          rw [← hok] at hs'
          simp at hs'
        rename_i hlast
        split at hok
        · rename_i now _
          simp only [Except.ok.injEq] at hok
          rw [← hok, Option.some.injEq] at hs'
          rw [← hs']
          have hp := phase_of_request hphase hr hd
          have hstep : DirectStep legit d (reconciled d receipt itemId now) := by
            refine .reconcile d receipt itemId now (by simpa using hterminal) hreceipt ?_ ?_ hargs
            · intro old hold
              simpa [hold] using hitem
            · intro e he
              simpa [he] using hlast
          have hstatus : r.status = (reconciled d receipt itemId now).review.status.lifecycle :=
            hp.status
          rw [hstatus]
          refine .updateOne (·.id = id) r _ hr (.change d _ hd hstep) ?_
          intro hnone
          simp [receiptOf, hd, hreceipt] at hnone
        · simp at hok
      · simp at hok
    · simp at hok
  · simp at hok

/-- INTERNAL: provisioning an operation. -/
theorem provisionOperation_step {legit : Prop} (draft : OperationPolicyDraft)
    (verifier : LoginEligibilityVerifier) (createOnly authorized : Bool)
    (h : handedState (provisionOperation E env s draft verifier createOnly authorized) = some s') :
    StateStep E ownerUid env legit s s' := by
  obtain ⟨handed, hok, hs'⟩ := handedState_eq_some _ _ h
  simp only [provisionOperation, bind, Except.bind, pure, Except.pure] at hok
  split at hok
  · simp at hok
  split at hok
  · rename_i image himage
    split at hok
    · rename_i policy hpolicy
      split at hok
      · simp at hok
      split at hok
      · simp at hok
      simp only [Except.ok.injEq] at hok
      rw [← hok, Option.some.injEq] at hs'
      rw [← hs']
      exact .provision draft image policy (List.mem_of_find?_eq_some himage) hpolicy
    · simp at hok
  · simp at hok

/-- INTERNAL: registering an image. -/
theorem registerImage_step {legit : Prop} (input : ApprovedImage)
    (verified : Except ProviderDiagnostic Unit)
    (h : handedState (registerImage E env s input verified) = some s') :
    StateStep E ownerUid env legit s s' := by
  obtain ⟨handed, hok, hs'⟩ := handedState_eq_some _ _ h
  simp only [registerImage, bind, Except.bind, pure, Except.pure] at hok
  split at hok
  · simp at hok
  rename_i hnew
  split at hok
  · rename_i image himage
    split at hok
    · simp at hok
    simp only [Except.ok.injEq] at hok
    rw [← hok, Option.some.injEq] at hs'
    rw [← hs']
    unfold ApprovedImage.fromRegistration at himage
    split_ifs at himage with hvalid
    rw [Option.some.injEq] at himage
    subst himage
    exact .register input hvalid (by simpa using hnew)
  · simp at hok

end Inversion

/-! ## Every operation -/

/-- INTERNAL: **every operation hands over a listed change of the state it read.** -/
theorem handed_step {E : Externals} {ownerUid : UInt32} {env : Env} {s s' : ProviderState}
    {legit : Prop} (op : Op) (hphase : ∀ r ∈ s.requests, ∃ d, RequestPhase r d)
    (hargs : legit → CallerArgs env s op ∧ RecordsWhileExecuting s op)
    (h : op.handed E ownerUid env s = some s') : StateStep E ownerUid env legit s s' := by
  cases op with
  | pairAgent human input now => exact pairAgent_step human input now (fun hl => (hargs hl).1) h
  | revokeAgent human id now => exact revokeAgent_step human id now hphase h
  | createDirect owner input now expires authorized =>
    exact createDirect_step owner input now expires authorized (fun hl => (hargs hl).1) h
  | createSigned owner input now expires authorized =>
    exact createSigned_step owner input now expires authorized (fun hl => (hargs hl).1) h
  | expireDirect now deadlines => exact expireDirect_step now deadlines hphase h
  | decideDirect binding approve method now =>
    exact decideDirect_step binding approve method now (fun hl => (hargs hl).1) h
  | claimExecution owner id => exact claimExecution_step owner id hphase h
  | executionStarted binding => exact executionStarted_step binding h
  | finishExecution binding status cleanup =>
    exact finishExecution_step binding status cleanup hphase (fun hl => (hargs hl).1) h
  | cancelUnclaimedExecution owner id => exact cancelUnclaimedExecution_step owner id hphase h
  | failDirectLaunch id => exact failDirectLaunch_step id hphase h
  | beginWrite binding => exact beginWrite_step binding hphase h
  | recordWrite binding item status => exact recordWrite_step binding item status hphase hargs h
  | reconcileWrite id itemId =>
    exact reconcileWrite_step id itemId hphase (fun hl => (hargs hl).1) h
  | consumeStatusQuery owner query => exact consumeStatusQuery_step owner query h
  | provisionOperation draft verifier createOnly authorized =>
    exact provisionOperation_step draft verifier createOnly authorized h
  | registerImage input verified => exact registerImage_step input verified h
  | lock => exact invalidate_step false hphase h

/-- The arguments of an event are those its callers guarantee. -/
def CallerEvent (s : ProviderState) : Event → Prop
  | .op op env _ => CallerArgs env s op ∧ RecordsWhileExecuting s op
  | .restart _ _ => True

/-- INTERNAL: **so does every event of a run.** -/
theorem event_handed_step {E : Externals} {ownerUid : UInt32} {s s' : ProviderState} {legit : Prop}
    (event : Event) (hphase : ∀ r ∈ s.requests, ∃ d, RequestPhase r d)
    (hargs : legit → CallerEvent s event) (h : event.handed E ownerUid s = some s') :
    StateStep E ownerUid event.env legit s s' := by
  cases event with
  | op op env w => exact handed_step op hphase hargs h
  | restart env w => exact invalidate_step true hphase h

end VaultAccess.Analysis
