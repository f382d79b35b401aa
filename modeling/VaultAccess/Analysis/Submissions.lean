import VaultAccess.Analysis.Validation

/-!
# Submissions pass the store's validation

What `create_owned` builds for an accepted policy and accepted arguments passes the checks
of the record, of its history and of the whole state, for every owner. A submission that
reaches the store is never refused there, so no agent can bring the provider to close its
admission by what it asks for.
-/

set_option autoImplicit false

namespace VaultAccess.Analysis

open VaultAccess.Library VaultAccess.Model

/-- The record `create_owned` builds.
SRCLINE: provider.rs:541-580 -/
def submittedRecord (E : Externals) (policy : OperationPolicy) (args : List String) (uid : UInt32)
    (agentOwner : Option AgentOwner) (replayDigest : Option String) (now expires : ℕ)
    (random : Vector UInt8 32) (epoch : ℕ) : DirectRecord :=
  newRecord E uid agentOwner replayDigest
    (ownedReview agentOwner (policy.directReview E (newRandom random) args expires)) now epoch

/-- What `create_owned` finds when nothing is wrong with a submission: the state can be read, the
agent is current, the operation is the policy's at the revision the caller expects, the marker is
new, and the random identifier is not in use. -/
structure Finds (E : Externals) (ownerUid : UInt32) (env : Env) (store : Store)
    (policy : OperationPolicy) (agentOwner : Option AgentOwner) (replayDigest revision : Option String)
    (random : Vector UInt8 32) (s : ProviderState) : Prop where
  read : store.readState E ownerUid env.disk = .ok s
  current : agentCurrent s agentOwner = true
  operation : s.operations.find? (·.id = policy.id) = some policy
  revision : revision = none ∨ revision = some policy.revision
  marker : ∀ marker, replayDigest = some marker → s.replayed marker = false
  drawn : env.random = some random
  fresh : ∀ r ∈ s.requests, r.id ≠ newRandom random

/-- INTERNAL: a state that is read passed its validation. -/
theorem validateForOwner_of_readState {E : Externals} {ownerUid : UInt32} {disk : Disk} {store : Store}
    {s : ProviderState} (h : store.readState E ownerUid disk = .ok s) :
    s.validateForOwner E disk ownerUid = true := by
  unfold Store.readState at h
  split_ifs at h
  cases hwire : store.durable.wire.tryFrom E disk with
  | none => simp [hwire] at h
  | some s₀ =>
    simp only [hwire] at h
    split_ifs at h with hvalid
    rw [← Except.ok.inj h]
    exact hvalid

/-- INTERNAL: one more request that is valid, under a new identifier and with a new marker. -/
theorem validateForOwner_push {E : Externals} {ownerUid : UInt32} {disk : Disk} {s : ProviderState}
    {r : RequestRecord} (h : s.validateForOwner E disk ownerUid = true)
    (hr : r.validate E s.pairings s.lifecycleEpoch = true) (hfresh : ∀ q ∈ s.requests, q.id ≠ r.id)
    (hmarker : ∀ marker, r.replayDigest = some marker → s.replayed marker = false) :
    { s with requests := s.requests ++ [r] }.validateForOwner E disk ownerUid = true := by
  simp only [ProviderState.validateForOwner, Bool.and_eq_true, decide_eq_true_eq] at h ⊢
  obtain ⟨⟨⟨hbefore, hmarkers⟩, hids⟩, hrequests⟩ := h
  have hids' : ((s.requests ++ [r]).map (·.id)).Nodup := by
    rw [List.map_append, List.nodup_append]
    refine ⟨hids, List.nodup_singleton _, ?_⟩
    intro a ha b hb
    obtain ⟨q, hq, rfl⟩ := List.mem_map.mp ha
    rw [List.map_singleton, List.mem_singleton] at hb
    rw [hb]
    exact hfresh q hq
  have hmarkers' : ({ s with requests := s.requests ++ [r] } : ProviderState).replayMarkers.Nodup := by
    show (s.queryReplayMarkers ++ (s.requests ++ [r]).filterMap RequestRecord.replayDigest).Nodup
    rw [List.filterMap_append, ← List.append_assoc, List.nodup_append]
    refine ⟨hmarkers, ?_, ?_⟩
    · cases hdigest : r.replayDigest <;> simp [hdigest]
    · intro a ha b hb hab
      subst hab
      cases hdigest : r.replayDigest with
      | none => simp [hdigest] at hb
      | some marker =>
        have heq : a = marker := by simpa [hdigest] using hb
        exact not_mem_of_replayed (hmarker marker hdigest) (heq ▸ ha)
  refine ⟨⟨⟨hbefore, hmarkers'⟩, hids'⟩, ?_⟩
  rw [List.all_append, hrequests]
  simpa using hr

/-- INTERNAL: the request of a submission by a current owner. -/
theorem submittedRequest_validate {E : Externals} {s : ProviderState} {policy : OperationPolicy}
    {args : List String} {uid : UInt32} {agentOwner : Option AgentOwner} {replayDigest : Option String}
    {now expires : ℕ} {random : Vector UInt8 32} (hcurrent : agentCurrent s agentOwner = true)
    (hrecord : RecordInv E (newRandom random) (submittedRecord E policy args uid agentOwner replayDigest
      now expires random s.lifecycleEpoch)) :
    (⟨newRandom random, .pending, some (submittedRecord E policy args uid agentOwner replayDigest now
      expires random s.lifecycleEpoch)⟩ : RequestRecord).validate E s.pairings s.lifecycleEpoch =
        true := by
  have hbound : agentOwner.all (fun owner => s.pairings.any fun b => owner.matches b) = true := by
    cases agentOwner with
    | none => rfl
    | some o =>
      obtain ⟨b, hb, rfl, -⟩ := owner_of_agentCurrent hcurrent
      exact List.any_eq_true.mpr ⟨b, hb, by simp [AgentOwner.matches]⟩
  have hepoch : (⟨newRandom random, .pending, some (submittedRecord E policy args uid agentOwner
      replayDigest now expires random s.lifecycleEpoch)⟩ : RequestRecord).epochValid
        (submittedRecord E policy args uid agentOwner replayDigest now expires random
          s.lifecycleEpoch) s.lifecycleEpoch = true := by
    simp [RequestRecord.epochValid, submittedRecord, newRecord, DirectRecord.seal]
  have hstatus : (submittedRecord E policy args uid agentOwner replayDigest now expires random
      s.lifecycleEpoch).review.status = .pending := by
    cases agentOwner <;> rfl
  have hpast := hrecord.validate s.lifecycleEpoch (Nat.le_refl _)
  simp only [RequestRecord.validate, hstatus, hepoch, Bool.and_true]
  simp only [Bool.and_eq_true]
  exact ⟨⟨hbound, rfl⟩, hpast⟩

/-- **Submissions are never refused by the store's validation.** For every policy that `from_draft`
accepts, every argument list that `normalize_args` accepts, every human or enabled agent and every
deadline in the future, the record of the submission passes `DirectRecord::validate` and its event
`HistoryEvent::valid`; and whatever state the submission finds, `create_owned` hands over a state that
passes `validate_for_owner`.
SRCLINE: provider.rs:496-600, direct_request.rs:633-701, history.rs:165-254 -/
theorem submissions_validate (E : Externals) (ownerUid : UInt32) (disk : Disk)
    (draft : OperationPolicyDraft) (approved : ApprovedImage) (policy : OperationPolicy)
    (hpolicy : OperationPolicy.fromDraft E disk draft approved = some policy)
    (values args : List String) (hargs : policy.normalizeArgs values = some args)
    (uid : UInt32) (agentOwner : Option AgentOwner) (howner : Submitter E ownerUid uid agentOwner)
    (replayDigest : Option String) (hreplay : ∀ marker, replayDigest = some marker →
      agentOwner.isSome = true ∧ validSha256 marker = true)
    (now expires : ℕ) (hnow : now < expires) (random : Vector UInt8 32) :
    (∀ epoch,
      let record := submittedRecord E policy args uid agentOwner replayDigest now expires random epoch
      record.validate E (newRandom random) epoch = true ∧ record.audit.length = 1 ∧
        ∀ event ∈ record.audit, event.valid = true) ∧
    ∀ env store revision s,
      Finds E ownerUid env store policy agentOwner replayDigest revision random s →
      ∃ review s', createOwned E env s uid agentOwner replayDigest ⟨policy.id, revision, values⟩ now
          expires true = .ok ⟨review, some s'⟩ ∧
        s'.requests = s.requests ++ [⟨newRandom random, .pending, some (submittedRecord E policy args
          uid agentOwner replayDigest now expires random s.lifecycleEpoch)⟩] ∧
        s'.validateForOwner E env.disk ownerUid = true := by
  obtain ⟨hintact, himage, -⟩ := intact_of_fromDraft E disk draft approved policy hpolicy
  have hdigest : validSha256 policy.image.sha256 = true := by
    unfold OperationPolicy.fromDraft at hpolicy
    split_ifs at hpolicy with hchecks
    simp only [ApprovedImage.validateIntegrity, Bool.and_eq_true] at hchecks
    rw [himage]
    exact hchecks.2.1.2
  have hrecord := fun epoch => submitted_inv uid agentOwner replayDigest policy values args now
    expires random epoch hintact hdigest hargs hreplay howner hnow
  refine ⟨fun epoch => ⟨(hrecord epoch).validate epoch (Nat.le_refl _), rfl, ?_⟩, ?_⟩
  · intro event hevent
    have heq : event = HistoryEvent.snapshot (submittedRecord E policy args uid agentOwner replayDigest
        now expires random epoch) 0 now .submitted (some .pending) := List.mem_singleton.mp hevent
    rw [heq]
    exact snapshot_valid (hrecord epoch).core _ _ _ _ rfl
  · intro env store revision s h
    have hvalid := validateForOwner_of_readState h.read
    have hoperation : validOperationId policy.id = true := by
      have hheading := validateDraft_heading policy.draft hintact.valid
      simp only [validHeading, Bool.and_eq_true] at hheading
      exact hheading.1.1
    have hrevision : revision.any (!validSha256 ·) = false ∧ revision.any (· ≠ policy.revision) = false := by
      have hpolicyRevision : validSha256 policy.revision = true := by
        rw [hintact.revision]
        exact validSha256_revisionFor E _ _
      rcases h.revision with hr | hr <;> simp [hr, hpolicyRevision]
    refine ⟨ownedReview agentOwner (policy.directReview E (newRandom random) args expires),
      { s with requests := s.requests ++ [⟨newRandom random, .pending, some (submittedRecord E policy
        args uid agentOwner replayDigest now expires random s.lifecycleEpoch)⟩] }, ?_, rfl, ?_⟩
    · simp only [createOwned, hoperation, hrevision.1, hrevision.2, h.current, h.operation, hargs,
        h.drawn, bind, Except.bind, pure, Except.pure, Bool.not_true, Bool.or_self, Bool.false_eq_true,
        if_false]
      rfl
    · exact validateForOwner_push hvalid
        (submittedRequest_validate h.current (hrecord s.lifecycleEpoch)) h.fresh h.marker

/-- The theorem at a submission of a person for an operation that creates a secret. -/
theorem submissions_validate_store :
    (submittedRecord Sample.externals (Sample.policy Sample.externals) [] 1000 none none 10 100
      Sample.random 1).validate Sample.externals (newRandom Sample.random) 1 = true :=
  ((submissions_validate Sample.externals 1000 Sample.disk Sample.draft (Sample.image Sample.externals)
    (Sample.policy Sample.externals) (Sample.fromDraft_draft Sample.externals) [] [] rfl 1000 none
    (.human 1000 (by decide)) none (fun _ h => absurd h (by simp)) 10 100 (by decide)
    Sample.random).1 1).1

end VaultAccess.Analysis
