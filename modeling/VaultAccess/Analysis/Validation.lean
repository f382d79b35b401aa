import VaultAccess.Analysis.Lifecycle
import VaultAccess.Analysis.RecordValid
import VaultAccess.Analysis.Registry

/-!
# Legitimate operations pass the store's validation

The invariant of a stored state, and that every legitimate operation keeps it. It
implies the verdict of `validate_for_owner` and that the document of the state is read
back as it is, wherever the registered images are unchanged on disk.
-/

set_option autoImplicit false

namespace VaultAccess.Analysis

open VaultAccess.Library VaultAccess.Library.Text VaultAccess.Model

/-! ## The invariant -/

/-- The invariant of a stored request. -/
structure RequestInv (E : Externals) (pairings : List AgentBinding) (epoch : ℕ) (r : RequestRecord)
    (d : DirectRecord) : Prop where
  direct : r.direct = some d
  status : r.status = d.review.status.lifecycle
  record : RecordInv E r.id d
  owner : ∀ o, d.agentOwner = some o → ∃ b ∈ pairings, o = AgentOwner.fromBinding b
  reached : d.lifecycleEpoch ≤ epoch
  current : d.review.status = .pending ∨ d.review.status = .approved →
    d.executionClaimed = false → d.lifecycleEpoch = epoch

/-- The invariant of a stored state. -/
structure StateInv (E : Externals) (ownerUid : UInt32) (s : ProviderState) : Prop where
  schema : s.schemaVersion = STATE_SCHEMA_VERSION
  registry : RegistryValid E s.pairings s.agentAudit ownerUid
  imageIds : (s.approvedImages.map (·.id)).Nodup
  imageDigests : ∀ i ∈ s.approvedImages, validSha256 i.sha256 = true
  operationIds : (s.operations.map (·.id)).Nodup
  operations : ∀ p ∈ s.operations, Intact E p ∧ p.image.approved ∈ s.approvedImages
  markers : ∀ marker ∈ s.queryReplayMarkers, validSha256 marker = true
  replay : s.replayMarkers.Nodup
  requestIds : (s.requests.map (·.id)).Nodup
  requests : ∀ r ∈ s.requests, ∃ d, RequestInv E s.pairings s.lifecycleEpoch r d

/-- The registered images are the files they were registered as. -/
def ImagesUnchanged (E : Externals) (disk : Disk) (s : ProviderState) : Prop :=
  ∀ i ∈ s.approvedImages, i.validateIntegrity E disk = true

/-! ## The validator's verdict -/

/-- INTERNAL: a unique identifier finds its element. -/
theorem find_of_nodup {α : Type} (id : α → String) (l : List α) (hids : (l.map id).Nodup) (a : α)
    (ha : a ∈ l) : l.find? (fun b => id b = id a) = some a := by
  induction l with
  | nil => simp at ha
  | cons b l ih =>
    rw [List.map_cons, List.nodup_cons] at hids
    rcases List.mem_cons.mp ha with rfl | hmem
    · simp
    · have hne : id b ≠ id a := fun heq => hids.1 (List.mem_map.mpr ⟨a, hmem, heq.symm⟩)
      simp only [List.find?_cons, hne, decide_false]
      exact ih hids.2 hmem

/-- INTERNAL: the checks of one request. -/
theorem RequestInv.validate {E : Externals} {pairings : List AgentBinding} {epoch : ℕ}
    {r : RequestRecord} {d : DirectRecord} (h : RequestInv E pairings epoch r d) :
    r.validate E pairings epoch = true := by
  have howner : d.agentOwner.all (fun owner => pairings.any fun b => owner.matches b) = true := by
    cases ho : d.agentOwner with
    | none => rfl
    | some o =>
      obtain ⟨b, hb, rfl⟩ := h.owner o ho
      exact List.any_eq_true.mpr ⟨b, hb, by simp [AgentOwner.matches]⟩
  have hepoch : r.epochValid d epoch = true := by
    unfold RequestRecord.epochValid
    rw [h.status]
    cases hs : d.review.status with
    | pending =>
      cases hclaimed : d.executionClaimed with
      | true => simp
      | false => simp [h.current (Or.inl hs) hclaimed]
    | approved =>
      cases hclaimed : d.executionClaimed with
      | true => simp
      | false => simp [h.current (Or.inr hs) hclaimed]
    | denied => rfl
    | expired => rfl
    | running => simp [DirectStatus.lifecycle]
    | completed exitCode => rfl
    | failed reason => rfl
  unfold RequestRecord.validate
  rw [h.direct]
  simp only [howner, h.record.validate epoch h.reached, hepoch, Bool.and_true, Bool.true_and]
  exact decide_eq_true h.status

/-- **The invariant implies the validator's verdict** where images are unchanged. -/
theorem StateInv.validateForOwner {E : Externals} {ownerUid : UInt32} {s : ProviderState}
    (h : StateInv E ownerUid s) (disk : Disk) (himages : ImagesUnchanged E disk s) :
    s.validateForOwner E disk ownerUid = true := by
  have hoperations : s.operations.all (s.operationValid E disk) = true := by
    rw [List.all_eq_true]
    intro p hp
    obtain ⟨hintact, himage⟩ := h.operations p hp
    have hfind : s.approvedImages.find? (·.id = p.imageId) = some p.image.approved :=
      find_of_nodup (·.id) _ h.imageIds p.image.approved himage
    simp only [ProviderState.operationValid, hfind, Bool.and_eq_true]
    refine ⟨validateIntegrity_of_intact E disk p hintact (himages _ himage), ?_⟩
    simp [OperationPolicy.imageMatches, ResolvedImage.approved]
  have hrequests : s.requests.all (·.validate E s.pairings s.lifecycleEpoch) = true := by
    rw [List.all_eq_true]
    intro r hr
    obtain ⟨d, hd⟩ := h.requests r hr
    exact hd.validate
  have himageIds := (hasDuplicates_eq_false_iff _).mpr h.imageIds
  have hoperationIds := (hasDuplicates_eq_false_iff _).mpr h.operationIds
  have hregistry := (validateRegistry_iff s.pairings s.agentAudit).mpr h.registry
  unfold ProviderState.validateForOwner
  simp only [hregistry, himageIds, hoperationIds, hoperations, hrequests, List.all_eq_true.mpr himages,
    List.all_eq_true.mpr h.markers, Bool.not_false, Bool.and_true, Bool.and_eq_true]
  exact ⟨⟨decide_eq_true h.schema, decide_eq_true h.replay⟩, decide_eq_true h.requestIds⟩

/-- **The document of a state is read back as it is** where images are unchanged. -/
theorem StateInv.tryFrom_wire {E : Externals} {ownerUid : UInt32} {s : ProviderState}
    (h : StateInv E ownerUid s) (disk : Disk) (himages : ImagesUnchanged E disk s) :
    s.wire.tryFrom E disk = some s := by
  have hoperations : s.wire.operations.mapM (·.tryFrom E disk) = some s.operations := by
    refine mapM_eq_some_self _ _ fun p hp => ?_
    obtain ⟨hintact, himage⟩ := h.operations p hp
    exact tryFrom_of_intact E disk p hintact (himages _ himage)
  have hrequests : s.wire.requests.mapM StoredRequest.tryFrom = some s.requests := by
    rw [show s.wire.requests = s.requests.map RequestRecord.wire from rfl, mapM_eq_some_iff,
      List.forall₂_map_left_iff]
    refine List.forall₂_same.mpr fun r hr => ?_
    obtain ⟨d, hd⟩ := h.requests r hr
    have hdirect := hd.direct
    simp only [StoredRequest.tryFrom, RequestRecord.wire, hdirect, Option.map_some,
      hd.record.tryFrom_wire]
    rw [← hdirect]
  have hschema : s.wire.schemaVersion = STATE_SCHEMA_VERSION := h.schema
  simp only [StoredProviderState.tryFrom, Option.bind_eq_bind, hoperations, hrequests,
    Option.bind_some, show s.wire.agentAudit = some s.agentAudit from rfl, Option.isNone_some,
    Bool.and_false, Bool.false_eq_true, if_false, if_pos hschema, Option.pure_def,
    Option.some.injEq]
  rw [← hschema]
  rfl

/-! ## Requests under an operation -/

/-- INTERNAL: a legitimate change keeps the invariant of a request. -/
theorem RequestInv.step {E : Externals} {pairings : List AgentBinding} {epoch : ℕ}
    {r r' : RequestRecord} {d : DirectRecord} (h : RequestInv E pairings epoch r d)
    (hstep : RequestStep True r r') : ∃ d', RequestInv E pairings epoch r' d' := by
  cases hstep with
  | same => exact ⟨d, h⟩
  | change d₀ d' hd₀ hchange =>
    have heq : d₀ = d := by
      have hdirect := h.direct
      rw [hd₀, Option.some.injEq] at hdirect
      exact hdirect
    subst heq
    have hcore := hchange.core_eq
    have hepoch : d'.lifecycleEpoch = d₀.lifecycleEpoch := congrArg (·.lifecycleEpoch) hcore
    have howner : d'.agentOwner = d₀.agentOwner := congrArg (·.agentOwner) hcore
    refine ⟨d', rfl, rfl, h.record.step hchange, ?_, ?_, ?_⟩
    · rw [howner]
      exact h.owner
    · rw [hepoch]
      exact h.reached
    · intro hstatus hunclaimed
      rw [hepoch]
      refine h.current ?_ ?_
      · have hmove := hchange.status_move
        rcases hstatus with hstatus | hstatus
        · rw [hstatus] at hmove
          generalize d₀.review.status = status at hmove
          cases hmove
          exact Or.inl rfl
        · rw [hstatus] at hmove
          generalize d₀.review.status = status at hmove
          cases hmove
          · exact Or.inr rfl
          · exact Or.inl rfl
      · by_contra hclaimed
        rw [hchange.claimed_mono (by simpa using hclaimed)] at hunclaimed
        simp at hunclaimed

/-- INTERNAL: so do changes of every request. -/
theorem requestInv_of_forall₂ {E : Externals} {pairings : List AgentBinding} {epoch : ℕ}
    {l l' : List RequestRecord} (h : ∀ r ∈ l, ∃ d, RequestInv E pairings epoch r d)
    (hl : List.Forall₂ (RequestStep True) l l') :
    ∀ r' ∈ l', ∃ d', RequestInv E pairings epoch r' d' := by
  intro r' hr'
  obtain ⟨r, hr, hstep⟩ := exists_left_of_forall₂ hl r' hr'
  obtain ⟨d, hd⟩ := h r hr
  exact hd.step hstep

/-- INTERNAL: changes keep identifiers and replay markers. -/
theorem keys_of_forall₂ {legit : Prop} {l l' : List RequestRecord}
    (hl : List.Forall₂ (RequestStep legit) l l') :
    l'.map (·.id) = l.map (·.id) ∧
      l'.filterMap RequestRecord.replayDigest = l.filterMap RequestRecord.replayDigest := by
  induction hl with
  | nil => exact ⟨rfl, rfl⟩
  | @cons r r' l l' hstep _ ih =>
    have hdigest : r'.replayDigest = r.replayDigest := by
      cases hstep with
      | same => rfl
      | change d d' hd hchange =>
        have hreplay : d'.replayDigest = d.replayDigest :=
          congrArg (·.replayDigest) hchange.core_eq
        simp [RequestRecord.replayDigest, hd, hreplay]
    refine ⟨by simp [hstep.id_eq, ih.1], ?_⟩
    simp only [List.filterMap_cons, hdigest, ih.2]

/-- INTERNAL: a marker that is not replayed is new. -/
theorem not_mem_of_replayed {s : ProviderState} {marker : String}
    (h : s.replayed marker = false) : marker ∉ s.replayMarkers := by
  simp only [ProviderState.replayed, Bool.or_eq_false_iff] at h
  intro hmem
  rcases List.mem_append.mp hmem with hquery | hrequest
  · simp [hquery] at h
  · obtain ⟨r, hr, hdigest⟩ := List.mem_filterMap.mp hrequest
    rw [List.any_eq_false] at h
    refine h.2 r hr ?_
    unfold RequestRecord.replayDigest at hdigest
    obtain ⟨d, hd, hmarker⟩ := Option.bind_eq_some_iff.mp hdigest
    simp [hd, hmarker]

/-- INTERNAL: an owner that is current is the owner of a registered binding that is enabled. -/
theorem owner_of_agentCurrent {s : ProviderState} {o : AgentOwner}
    (h : agentCurrent s (some o) = true) :
    ∃ b ∈ s.pairings, o = AgentOwner.fromBinding b ∧ b.status = .enabled := by
  simp only [agentCurrent, Option.all_some, List.any_eq_true, Bool.and_eq_true] at h
  obtain ⟨b, hb, hmatches, henabled⟩ := h
  exact ⟨b, hb, by simpa [AgentOwner.matches] using hmatches,
    by simpa [AgentBinding.enabledCurrent] using henabled⟩

/-- INTERNAL: the owner of a valid binding is valid. -/
theorem valid_fromBinding {E : Externals} {ownerUid : UInt32} (b : AgentBinding)
    (h : b.validate E ownerUid = true) : (AgentOwner.fromBinding b).valid = true := by
  unfold AgentBinding.validate at h
  split at h
  · simp only [Bool.and_eq_true, decide_eq_true_eq] at h
    obtain ⟨⟨⟨⟨⟨hid, hlabel⟩, huid⟩, hgid⟩, -⟩, hfingerprint⟩ := h
    simp [AgentOwner.valid, AgentOwner.fromBinding, hid, hlabel, huid, hgid, hfingerprint,
      validSha256_hexSha256]
  · simp at h

/-- Who owns a new request: a person, with the uid the kernel reports of a peer, which is never
`u32::MAX`, or an agent through a valid binding that is enabled. -/
inductive Submitter (E : Externals) (ownerUid : UInt32) : UInt32 → Option AgentOwner → Prop where
  | human (uid : UInt32) (hreal : uid ≠ u32Max) : Submitter E ownerUid uid none
  | agent (b : AgentBinding) (hvalid : b.validate E ownerUid = true) (henabled : b.status = .enabled) :
      Submitter E ownerUid b.uid (some (AgentOwner.fromBinding b))

/-- **The record of a submission that `create_owned` accepts satisfies the invariant.** -/
theorem submitted_inv {E : Externals} {ownerUid : UInt32} (uid : UInt32)
    (agentOwner : Option AgentOwner) (replayDigest : Option String) (policy : OperationPolicy)
    (values args : List String) (now expires : ℕ) (random : Vector UInt8 32) (epoch : ℕ)
    (hintact : Intact E policy) (himage : validSha256 policy.image.sha256 = true)
    (hargs : policy.normalizeArgs values = some args)
    (hreplay : ∀ marker, replayDigest = some marker →
      agentOwner.isSome = true ∧ validSha256 marker = true)
    (howner : Submitter E ownerUid uid agentOwner) (hnow : now < expires) :
    RecordInv E (newRandom random) (newRecord E uid agentOwner replayDigest (ownedReview agentOwner
      (policy.directReview E (newRandom random) args expires)) now epoch) := by
  have hreview := directReview_valid E policy (newRandom random) values args expires hintact himage
    hargs
  have hid := validRequestId_newRandom random
  cases howner with
  | human _ hreal =>
    have howner : (newRecord E uid none replayDigest (policy.directReview E (newRandom random) args
        expires) now epoch).ownerValid = true := by
      simp [DirectRecord.ownerValid, newRecord, DirectRecord.seal, OperationPolicy.directReview]
    exact newRecord_inv E uid none replayDigest (policy.directReview E (newRandom random) args expires)
      now epoch hreplay hid hreal hnow rfl howner hreview
  | agent b hb _ =>
    have hvalid := valid_fromBinding b hb
    have hreal : b.uid ≠ u32Max := by
      simp only [AgentOwner.valid, validOsId, Bool.and_eq_true, decide_eq_true_eq] at hvalid
      exact hvalid.1.2.2
    have huid : (AgentOwner.fromBinding b).uid = b.uid := rfl
    have howner : (newRecord E b.uid (some (AgentOwner.fromBinding b)) replayDigest
        (ownedReview (some (AgentOwner.fromBinding b)) (policy.directReview E (newRandom random) args
          expires)) now epoch).ownerValid = true := by
      simp [DirectRecord.ownerValid, newRecord, DirectRecord.seal, hvalid, ownedReview, huid]
    exact newRecord_inv E b.uid (some (AgentOwner.fromBinding b)) replayDigest
      (ownedReview (some (AgentOwner.fromBinding b)) (policy.directReview E (newRandom random) args
        expires)) now epoch hreplay hid hreal hnow rfl howner hreview

/-- INTERNAL: the owner of an accepted submission. -/
theorem submitter_of_agentCurrent {E : Externals} {ownerUid : UInt32} {s : ProviderState}
    {uid : UInt32} {agentOwner : Option AgentOwner}
    (hregistry : ∀ b ∈ s.pairings, b.validate E ownerUid = true)
    (hcurrent : agentCurrent s agentOwner = true)
    (huid : ∀ owner, agentOwner = some owner → uid = owner.uid)
    (huser : agentOwner = none → uid ≠ u32Max) : Submitter E ownerUid uid agentOwner ∧
      ∀ o, agentOwner = some o → ∃ b ∈ s.pairings, o = AgentOwner.fromBinding b := by
  cases agentOwner with
  | none => exact ⟨.human uid (huser rfl), fun o ho => absurd ho (by simp)⟩
  | some o =>
    obtain ⟨b, hb, rfl, henabled⟩ := owner_of_agentCurrent hcurrent
    rw [huid _ rfl]
    exact ⟨.agent b (hregistry b hb) henabled, fun o ho => ⟨b, hb, (Option.some.inj ho).symm⟩⟩

/-- INTERNAL: a new request satisfies the invariant. -/
theorem newRequest_inv {E : Externals} {ownerUid : UInt32} {s : ProviderState}
    (h : StateInv E ownerUid s) (uid : UInt32) (agentOwner : Option AgentOwner)
    (replayDigest : Option String) (policy : OperationPolicy) (values args : List String)
    (now expires : ℕ) (random : Vector UInt8 32) (hcurrent : agentCurrent s agentOwner = true)
    (hpolicy : policy ∈ s.operations) (hargs : policy.normalizeArgs values = some args)
    (hreplay : ∀ marker, replayDigest = some marker →
      agentOwner.isSome = true ∧ validSha256 marker = true)
    (huid : ∀ owner, agentOwner = some owner → uid = owner.uid) (hnow : now < expires)
    (huser : agentOwner = none → uid ≠ u32Max) :
    ∃ d, RequestInv E s.pairings s.lifecycleEpoch
      (newRequest E s uid agentOwner replayDigest policy args now expires random) d := by
  obtain ⟨hintact, himage⟩ := h.operations policy hpolicy
  obtain ⟨hsubmitter, hbound⟩ := submitter_of_agentCurrent h.registry.valid hcurrent huid huser
  have hrecord := submitted_inv uid agentOwner replayDigest policy values args now expires random
    s.lifecycleEpoch hintact (h.imageDigests _ himage) hargs hreplay hsubmitter hnow
  refine ⟨_, rfl, ?_, hrecord, fun o ho => ?_, Nat.le_refl _, fun _ _ => rfl⟩
  · cases agentOwner <;> rfl
  · exact hbound o (by simpa [newRecord, DirectRecord.seal] using ho)

/-! ## States under an operation -/

/-- INTERNAL: changes of requests keep the invariant. -/
theorem StateInv.update {E : Externals} {ownerUid : UInt32} {s : ProviderState}
    (h : StateInv E ownerUid s) (requests : List RequestRecord)
    (hrequests : List.Forall₂ (RequestStep True) s.requests requests) :
    StateInv E ownerUid { s with requests := requests } := by
  obtain ⟨hids, hmarkers⟩ := keys_of_forall₂ hrequests
  exact { h with
    replay := by
      show (s.queryReplayMarkers ++ requests.filterMap RequestRecord.replayDigest).Nodup
      rw [hmarkers]
      exact h.replay
    requestIds := by
      show (requests.map (·.id)).Nodup
      rw [hids]
      exact h.requestIds
    requests := requestInv_of_forall₂ h.requests hrequests }

/-- INTERNAL: a change of the registry keeps requests when every owner keeps a binding. -/
theorem RequestInv.pairings {E : Externals} {pairings pairings' : List AgentBinding} {epoch : ℕ}
    {r : RequestRecord} {d : DirectRecord} (h : RequestInv E pairings epoch r d)
    (hkeep : ∀ b ∈ pairings, ∃ b' ∈ pairings',
      AgentOwner.fromBinding b' = AgentOwner.fromBinding b) :
    RequestInv E pairings' epoch r d :=
  { h with
    owner := by
      intro o ho
      obtain ⟨b, hb, rfl⟩ := h.owner o ho
      obtain ⟨b', hb', heq⟩ := hkeep b hb
      exact ⟨b', hb', heq.symm⟩ }

/-- INTERNAL: a revoked binding has the same owner. -/
theorem owner_revokeFirst (id : String) (l : List AgentBinding) (b : AgentBinding) (hb : b ∈ l) :
    ∃ b' ∈ revokeFirst id l, AgentOwner.fromBinding b' = AgentOwner.fromBinding b := by
  have hmap := map_revokeFirst AgentOwner.fromBinding (fun _ => rfl) id l
  have hmem : AgentOwner.fromBinding b ∈ (revokeFirst id l).map AgentOwner.fromBinding := by
    rw [hmap]
    exact List.mem_map_of_mem hb
  obtain ⟨b', hb', heq⟩ := List.mem_map.mp hmem
  exact ⟨b', hb', heq⟩

/-- INTERNAL: the operations after provisioning. -/
theorem mem_upsertOperation (policy p : OperationPolicy) (l : List OperationPolicy)
    (h : p ∈ upsertOperation policy l) : p = policy ∨ p ∈ l := by
  induction l with
  | nil => exact Or.inl (by simpa [upsertOperation] using h)
  | cons a l ih =>
    unfold upsertOperation at h
    split_ifs at h
    · rcases List.mem_cons.mp h with rfl | hmem
      · exact Or.inl rfl
      · exact Or.inr (by simp [hmem])
    · rcases List.mem_cons.mp h with rfl | hmem
      · exact Or.inr (by simp)
      · rcases ih hmem with rfl | hl
        · exact Or.inl rfl
        · exact Or.inr (by simp [hl])

/-- INTERNAL: provisioning keeps operation identifiers apart. -/
theorem nodup_upsertOperation (policy : OperationPolicy) (l : List OperationPolicy)
    (h : (l.map (·.id)).Nodup) : ((upsertOperation policy l).map (·.id)).Nodup := by
  induction l with
  | nil => simp [upsertOperation]
  | cons a l ih =>
    rw [List.map_cons, List.nodup_cons] at h
    unfold upsertOperation
    split_ifs with hid
    · rw [List.map_cons, List.nodup_cons, ← hid]
      exact h
    · rw [List.map_cons, List.nodup_cons]
      refine ⟨?_, ih h.2⟩
      intro hmem
      obtain ⟨p, hp, heq⟩ := List.mem_map.mp hmem
      rcases mem_upsertOperation policy p l hp with rfl | hl
      · exact hid heq.symm
      · exact h.1 (List.mem_map.mpr ⟨p, hl, heq⟩)

/-- INTERNAL: a settled request may be of an earlier epoch. -/
theorem RequestInv.settled {E : Externals} {pairings : List AgentBinding} {epoch : ℕ}
    {r : RequestRecord} {d : DirectRecord} (h : RequestInv E pairings epoch r d) (hs : Settled r) :
    RequestInv E pairings (epoch + 1) r d :=
  { h with
    reached := Nat.le_succ_of_le h.reached
    current := by
      intro hstatus hunclaimed
      have hunexecuted : r.status.isUnexecuted = true := by
        rw [h.status]
        rcases hstatus with hstatus | hstatus <;> rw [hstatus] <;> rfl
      rw [hs d h.direct hunexecuted] at hunclaimed
      simp at hunclaimed }

/-- **Every legitimate change of the state keeps the invariant**, and the images it leaves are
unchanged on the disk the operation saw. -/
theorem StateInv.step {E : Externals} {ownerUid : UInt32} {env : Env} {s s' : ProviderState}
    (h : StateInv E ownerUid s) (himages : ImagesUnchanged E env.disk s)
    (hstep : StateStep E ownerUid env True s s') :
    StateInv E ownerUid s' ∧ ImagesUnchanged E env.disk s' := by
  cases hstep with
  | pair input random binding now hnew hkeys hlabels hfresh =>
    obtain ⟨hvalid, henabled⟩ := new_binding input random binding hnew
    refine ⟨{ h with
      registry := h.registry.pair binding now hvalid henabled (hfresh trivial) hkeys hlabels
      requests := ?_ }, himages⟩
    intro r hr
    obtain ⟨d, hd⟩ := h.requests r hr
    exact ⟨d, hd.pairings fun b hb => ⟨b, by simp [hb], rfl⟩⟩
  | revoke id binding now requests hfind henabled hrequests =>
    have hupdate := h.update requests (hrequests.imp fun _ _ h => h.1)
    refine ⟨{ hupdate with
      registry := h.registry.revoke id binding now hfind henabled
      requests := ?_ }, himages⟩
    intro r hr
    obtain ⟨d, hd⟩ := hupdate.requests r hr
    exact ⟨d, hd.pairings (owner_revokeFirst id s.pairings)⟩
  | create uid agentOwner replayDigest policy values args now expires random hcurrent hpolicy hargs
      hreplay huid hlegit =>
    obtain ⟨hnow, huser, hfresh⟩ := hlegit trivial
    obtain ⟨d, hd⟩ := newRequest_inv h uid agentOwner replayDigest policy values args now expires
      random hcurrent hpolicy hargs (fun marker hm => ⟨(hreplay marker hm).1, (hreplay marker hm).2.1⟩)
      huid hnow huser
    have hdigest : (newRequest E s uid agentOwner replayDigest policy args now expires
        random).replayDigest = replayDigest := rfl
    refine ⟨{ h with
      replay := ?_
      requestIds := nodup_map_snoc _ _ _ h.requestIds hfresh
      requests := ?_ }, himages⟩
    · show (s.queryReplayMarkers ++ (s.requests ++ [_]).filterMap RequestRecord.replayDigest).Nodup
      rw [List.filterMap_append, ← List.append_assoc]
      cases replayDigest with
      | none =>
        rw [List.filterMap_cons_none hdigest, List.filterMap_nil, List.append_nil]
        exact h.replay
      | some marker =>
        rw [List.filterMap_cons_some hdigest, List.filterMap_nil]
        have hnew := not_mem_of_replayed (hreplay marker rfl).2.2
        exact List.nodup_append_comm.mp (List.nodup_cons.mpr ⟨hnew, h.replay⟩)
    · intro r hr
      rcases List.mem_append.mp hr with hold | hnew
      · exact h.requests r hold
      · rw [List.mem_singleton.mp hnew]
        exact ⟨d, hd⟩
  | updateOne p r r' hfind hstep _ =>
    exact ⟨h.update _ (forall₂_setFirst p _ (fun _ => .same) s.requests r r' hfind hstep), himages⟩
  | updateAll requests hrequests =>
    exact ⟨h.update requests (hrequests.imp fun _ _ h => h.1), himages⟩
  | invalidate requests hrequests hdone =>
    have hupdate := h.update requests (hrequests.imp fun _ _ h => h.1)
    refine ⟨{ hupdate with requests := ?_ }, himages⟩
    intro r hr
    obtain ⟨d, hd⟩ := hupdate.requests r hr
    exact ⟨d, hd.settled (hdone r hr)⟩
  | query marker hvalid hnew =>
    refine ⟨{ h with markers := ?_, replay := ?_ }, himages⟩
    · intro m hm
      rcases List.mem_append.mp hm with hold | hlast
      · exact h.markers m hold
      · rw [List.mem_singleton.mp hlast]
        exact hvalid
    · show (s.queryReplayMarkers ++ [marker] ++
        s.requests.filterMap RequestRecord.replayDigest).Nodup
      have hcons := List.nodup_cons.mpr ⟨not_mem_of_replayed hnew, h.replay⟩
      rw [List.append_assoc]
      exact (List.perm_middle.nodup_iff).mpr hcons
  | provision draft image policy himage hpolicy =>
    obtain ⟨hintact, hresolved, -⟩ := intact_of_fromDraft E env.disk draft image policy hpolicy
    refine ⟨{ h with
      operationIds := nodup_upsertOperation policy s.operations h.operationIds
      operations := ?_ }, himages⟩
    intro p hp
    rcases mem_upsertOperation policy p s.operations hp with rfl | hold
    · refine ⟨hintact, ?_⟩
      rw [hresolved]
      exact himage
    · exact h.operations p hold
  | register image hvalid hnew =>
    have hdigest : validSha256 image.sha256 = true := by
      simp only [ApprovedImage.validateIntegrity, Bool.and_eq_true] at hvalid
      exact hvalid.1.2
    refine ⟨{ h with
      imageIds := nodup_map_snoc _ _ _ h.imageIds hnew
      imageDigests := ?_
      operations := ?_ }, ?_⟩
    · intro i hi
      rcases List.mem_append.mp hi with hold | hlast
      · exact h.imageDigests i hold
      · rw [List.mem_singleton.mp hlast]
        exact hdigest
    · intro p hp
      obtain ⟨hintact, himage⟩ := h.operations p hp
      exact ⟨hintact, List.mem_append_left _ himage⟩
    · intro i hi
      rcases List.mem_append.mp hi with hold | hlast
      · exact himages i hold
      · rw [List.mem_singleton.mp hlast]
        exact hvalid

/-! ## Runs -/

/-- The guarantees of the callers of an event: their arguments, and images unchanged on disk. -/
def Legitimate (E : Externals) (store : Store) : Event → Prop
  | .op op env _ => ImagesUnchanged E env.disk store.durable ∧ CallerArgs env store.durable op
  | .restart env _ => ImagesUnchanged E env.disk store.durable

/-- A write result is recorded while its request executes. -/
def RecordsInTime (store : Store) : Event → Prop
  | .op op _ _ => RecordsWhileExecuting store.durable op
  | .restart _ _ => True

/-- INTERNAL: the initial state satisfies the invariant. -/
theorem initial_stateInv (E : Externals) (ownerUid : UInt32) :
    StateInv E ownerUid Store.initial.durable where
  schema := rfl
  registry := ⟨by simp [Store.initial, ProviderState.initial], List.nodup_nil, List.nodup_nil,
    List.nodup_nil, [], rfl, by simp [Store.initial, ProviderState.initial]⟩
  imageIds := List.nodup_nil
  imageDigests := by simp [Store.initial, ProviderState.initial]
  operationIds := List.nodup_nil
  operations := by simp [Store.initial, ProviderState.initial]
  markers := by simp [Store.initial, ProviderState.initial]
  replay := List.nodup_nil
  requestIds := List.nodup_nil
  requests := by simp [Store.initial, ProviderState.initial]

theorem StateInv.inPhase {E : Externals} {ownerUid : UInt32} {s : ProviderState}
    (h : StateInv E ownerUid s) : InPhase s := by
  refine ⟨fun r hr => ?_, h.requestIds⟩
  obtain ⟨d, hd⟩ := h.requests r hr
  exact ⟨d, hd.direct, hd.status, hd.record.core.requestId, hd.record.phase⟩

/-- INTERNAL: **what a legitimate event hands over satisfies the invariant.** -/
theorem handsOver_stateInv {E : Externals} {ownerUid : UInt32} (store : Store) (event : Event)
    (s' : ProviderState) (h : StateInv E ownerUid store.durable) (hlegit : Legitimate E store event)
    (htime : RecordsInTime store event) (hs' : event.handsOver E ownerUid store = some s') :
    StateInv E ownerUid s' ∧ ImagesUnchanged E event.env.disk s' := by
  have himages : ImagesUnchanged E event.env.disk store.durable := by
    cases event with
    | op op env w => exact hlegit.1
    | restart env w => exact hlegit
  have hread : ∀ s, event.reads E ownerUid store = some s → s = store.durable := by
    intro s hs
    obtain ⟨-, hdecoded, -⟩ := reads_eq store event s hs
    rw [h.tryFrom_wire event.env.disk himages, Option.some.injEq] at hdecoded
    exact hdecoded.symm
  obtain ⟨s, hreads, -, hstep⟩ := @handsOver_step E ownerUid True store event s' h.inPhase
    (fun s _ hs => by
      rw [hread s hs]
      cases event with
      | op op env w => exact ⟨hlegit.2, htime⟩
      | restart env w => trivial) hs'
  rw [hread s hreads] at hstep
  exact h.step himages hstep

/-- INTERNAL: every state of a legitimate run satisfies the invariant. -/
theorem run_stateInv (E : Externals) (ownerUid : UInt32) (events : List Event)
    (h : Along (step E ownerUid) (fun store event => Legitimate E store event ∧
      RecordsInTime store event) Store.initial events) :
    StateInv E ownerUid (run E ownerUid Store.initial events).durable := by
  refine run_invariant_along (step E ownerUid) (fun store => StateInv E ownerUid store.durable) _
    ?_ Store.initial events (initial_stateInv E ownerUid) h
  rintro store event hinv ⟨hlegit, htime⟩
  rcases @step_durable E ownerUid store event with hsame | ⟨s', hs', -, hnext⟩
  · rw [hsame]
    exact hinv
  · rw [hnext]
    exact (handsOver_stateInv store event s' hinv hlegit htime hs').1

/-- **Legitimate operations are never refused by the store's own validation.** After every run of
legitimate events the stored state can be read, and what the next legitimate event hands to the
store passes `validate_for_owner`.
SRCLINE: provider_store.rs:123-211 -/
theorem legitimate_operations_validate (E : Externals) (ownerUid : UInt32) (events : List Event)
    (h : Along (step E ownerUid) (fun store event => Legitimate E store event ∧
      RecordsInTime store event) Store.initial events) :
    (∀ disk, ImagesUnchanged E disk (run E ownerUid Store.initial events).durable →
      Store.readState E ownerUid disk ⟨(run E ownerUid Store.initial events).durable, false⟩ =
        .ok (run E ownerUid Store.initial events).durable) ∧
    ∀ event s', Legitimate E (run E ownerUid Store.initial events) event →
      RecordsInTime (run E ownerUid Store.initial events) event →
      event.handsOver E ownerUid (run E ownerUid Store.initial events) = some s' →
      s'.validateForOwner E event.env.disk ownerUid = true := by
  have hinv := run_stateInv E ownerUid events h
  constructor
  · intro disk himages
    simp [Store.readState, hinv.tryFrom_wire disk himages, hinv.validateForOwner disk himages]
  · intro event s' hlegit htime hs'
    obtain ⟨hs, himages⟩ := handsOver_stateInv _ event s' hinv hlegit htime hs'
    exact hs.validateForOwner event.env.disk himages

/-! ## A secret is created

A run on concrete inputs, to which the theorem applies and which continues to the one call it
leaves out. -/

/-- Operations that succeed one after the other, each legitimate and each committed. -/
inductive Commits (E : Externals) (ownerUid : UInt32) (env : Env) :
    ProviderState → List Op → ProviderState → Prop where
  | nil (s : ProviderState) : Commits E ownerUid env s [] s
  | cons (s s' s'' : ProviderState) (op : Op) (ops : List Op)
      (hs : op.handed E ownerUid env s = some s') (himages : ImagesUnchanged E env.disk s)
      (hargs : CallerArgs env s op) (htime : RecordsWhileExecuting s op)
      (hrest : Commits E ownerUid env s' ops s'') : Commits E ownerUid env s (op :: ops) s''

/-- The events of committed operations. -/
def committed (env : Env) (ops : List Op) : List Event := ops.map fun op => .op op env .committed

/-- INTERNAL: committed operations are a legitimate run. -/
theorem Commits.run {E : Externals} {ownerUid : UInt32} {env : Env} {s s' : ProviderState}
    {ops : List Op} (h : Commits E ownerUid env s ops s') (hinv : StateInv E ownerUid s) :
    Along (step E ownerUid) (fun store event => Legitimate E store event ∧
        RecordsInTime store event) ⟨s, false⟩ (committed env ops) ∧
      Model.run E ownerUid ⟨s, false⟩ (committed env ops) = ⟨s', false⟩ := by
  induction h with
  | nil s => exact ⟨trivial, rfl⟩
  | cons s s₁ s₂ op ops hs himages hargs htime _ ih =>
    have hover : Event.handsOver E ownerUid ⟨s, false⟩ (.op op env .committed) = some s₁ := by
      simp [Event.handsOver, Event.reads, Event.opened, Event.env, Store.readState, Event.handed,
        hinv.tryFrom_wire env.disk himages, hinv.validateForOwner env.disk himages, hs]
    obtain ⟨hinv₁, himages₁⟩ := handsOver_stateInv ⟨s, false⟩ (.op op env .committed) s₁ hinv
      ⟨himages, hargs⟩ htime hover
    have hwrite : Store.writeState E ownerUid env.disk ⟨s, false⟩ s₁ .committed =
        (⟨s₁, false⟩, .ok ()) := by
      simp [Store.writeState, hinv₁.validateForOwner env.disk himages₁]
    have hstep : step E ownerUid ⟨s, false⟩ (.op op env .committed) = ⟨s₁, false⟩ := by
      rw [step_of_isOk ⟨s, false⟩ op env .committed s₁ hover (by rw [hwrite]; rfl)]
    obtain ⟨halong, hrun⟩ := ih hinv₁
    refine ⟨⟨⟨⟨himages, hargs⟩, htime⟩, ?_⟩, ?_⟩
    · rw [hstep]
      exact halong
    · unfold Model.run committed at hrun
      unfold Model.run committed
      rw [List.map_cons, List.foldl_cons, hstep, hrun]

namespace Sample

section Creation

variable (E : Externals)

/-- The header of an executable. -/
def elf : List UInt8 := [0x7f, 0x45, 0x4c, 0x46, 2, 1, 1, 0, 0, 0, 0, 0, 0, 0, 0, 0]

def disk : Disk where
  entry
    | ["opt"] => some .directory
    | ["opt", "tool"] => some (.file 0o755 elf)
    | _ => none

def random : Vector UInt8 32 := Vector.ofFn fun i => UInt8.ofNat (7 * i.val + 1)
def env : Env := ⟨disk, fun _ => some 10, some random⟩

def image : ApprovedImage :=
  ⟨"tool", "/opt", "/opt/tool", hexSha256 E elf, .reviewedSelfContainedElf64V1⟩

def effect : CreateEffect :=
  ⟨"https://vault.example", ⟨"2f1c8a40-6d3e-4b57-9c21-08e5f7a1b6d4", "keys",
    "2f1c8a40-6d3e-4b57-9c21-08e5f7a1b6d4", "keys/token"⟩, ["password"], "store"⟩

/-- An operation that creates one secret. -/
def draft : OperationPolicyDraft where
  id := "store"
  description := "Store a token"
  imageId := "tool"
  targets := []
  arguments := []
  credentials := []
  ssh := none
  create := some effect
  requirePassword := false

def verifier : LoginEligibilityVerifier := ⟨fun _ _ _ _ => true, fun _ => true, fun _ _ _ => true⟩

def policy : OperationPolicy := OperationPolicy.ofCanonical E draft (image E).resolved

def requestId : String := newRandom random

/-- The record as it is submitted, approved, claimed, started, marked and rejected. -/
def submitted : DirectRecord :=
  newRecord E 1000 none none ((policy E).directReview E requestId [] 100) 10 1

def approved : DirectRecord := decided (submitted E) true none 11
def claimed : DirectRecord := { approved E with executionClaimed := true }
def started : DirectRecord := (claimed E).advance .running .approved 10
def marked : DirectRecord := { started E with writeReceipt := some ⟨requestId, none, .uncertain⟩ }
def rejected : DirectRecord :=
  (marked E).advance (.failed .executionRejected) .executionUnavailable 10

def binding : ApprovalBinding := (submitted E).approvalBinding

def recovered : ProviderState := { ProviderState.initial with lifecycleEpoch := 1 }
def registered : ProviderState := { recovered with approvedImages := [image E] }
def provisioned : ProviderState := { registered E with operations := [policy E] }

/-- The state with one request. -/
def holding (d : DirectRecord) : ProviderState :=
  { provisioned E with requests := [⟨requestId, d.review.status.lifecycle, some d⟩] }

/-- The state at another epoch of its lifecycle, and the records a request has there. -/
def atEpoch (n : ℕ) (s : ProviderState) : ProviderState := { s with lifecycleEpoch := n }
def submittedAt (n : ℕ) : DirectRecord :=
  newRecord E 1000 none none ((policy E).directReview E requestId [] 100) 10 n
def approvedAt (n : ℕ) : DirectRecord := decided (submittedAt E n) true none 11
def claimedAt (n : ℕ) : DirectRecord := { approvedAt E n with executionClaimed := true }
def bindingAt (n : ℕ) : ApprovalBinding := (submittedAt E n).approvalBinding
def holdingAt (n : ℕ) (d : DirectRecord) : ProviderState := atEpoch n (holding E d)

/-- The operations up to the marker of the creation. -/
def creation : List Op :=
  [.registerImage (image E) (.ok ()), .provisionOperation draft verifier true true,
    .createDirect 1000 ⟨"store", none, []⟩ 10 100 true, .decideDirect (binding E) true none 11,
    .claimExecution 1000 requestId, .executionStarted (binding E), .beginWrite (binding E)]

def rejection : Op := .finishExecution (binding E) (.failed .executionRejected) .reaped
def lateRecord : Op := .recordWrite (binding E) none .failed

/-- INTERNAL: the registered image is on disk. -/
theorem image_intact : (image E).validateIntegrity E disk = true := by
  have hparts : components "/opt/tool" = [.rootDir, .normal "opt", .normal "tool"] := by
    decide +kernel
  have hshape : (validOperationId "tool" && validImagePath "/opt" && validImagePath "/opt/tool" &&
      strictlyUnder "/opt/tool" "/opt") = true := by decide +kernel
  have hmatches : executableIdentityMatches E disk "/opt/tool" (hexSha256 E elf) = true := by
    unfold executableIdentityMatches
    rw [hparts]
    simp only [nonsymlinkRegular, disk, List.nil_append, List.isEmpty_cons, List.isEmpty_nil,
      List.cons_append, Bool.false_eq_true, if_false, if_true, decide_true, Bool.and_true]
    decide
  unfold ApprovedImage.validateIntegrity image
  simp only [hshape, hmatches, validSha256_hexSha256, Bool.and_true]

/-- INTERNAL: the images of the run. -/
theorem imagesUnchanged (s : ProviderState)
    (h : s.approvedImages = [] ∨ s.approvedImages = [image E]) : ImagesUnchanged E disk s := by
  intro i hi
  rcases h with h | h
  · simp [h] at hi
  · rw [h, List.mem_singleton] at hi
    rw [hi]
    exact image_intact E

/-- INTERNAL: the policy of the draft. -/
theorem fromDraft_draft : OperationPolicy.fromDraft E disk draft (image E) = some (policy E) := by
  have hvalid : validateDraft draft = true := by decide +kernel
  have hcanonical : canonicalizeDraft draft = draft := rfl
  unfold OperationPolicy.fromDraft
  rw [hvalid, image_intact, hcanonical]
  rfl

theorem request_holdingAt (n : ℕ) (d : DirectRecord) :
    (holdingAt E n d).request requestId = some ⟨requestId, d.review.status.lifecycle, some d⟩ := by
  simp [ProviderState.request, holdingAt, atEpoch, holding]

theorem setRequest_holdingAt (n : ℕ) (d d' : DirectRecord) :
    (holdingAt E n d).setRequest requestId ⟨requestId, d'.review.status.lifecycle, some d'⟩ =
      holdingAt E n d' := by
  simp [ProviderState.setRequest, holdingAt, atEpoch, holding, setFirst]

theorem visibleDirect_holdingAt (n : ℕ) (d : DirectRecord) (howner : d.ownerUid = 1000)
    (hagent : d.agentOwner = none) :
    visibleDirect 1000 (holdingAt E n d) 1000 requestId = some d := by
  simp [visibleDirect, ProviderState.direct, request_holdingAt, DirectRecord.humanVisible,
    DirectRecord.owner, howner, hagent]

theorem request_holding (d : DirectRecord) :
    (holding E d).request requestId = some ⟨requestId, d.review.status.lifecycle, some d⟩ :=
  request_holdingAt E 1 d

theorem setRequest_holding (d d' : DirectRecord) :
    (holding E d).setRequest requestId ⟨requestId, d'.review.status.lifecycle, some d'⟩ =
      holding E d' := setRequest_holdingAt E 1 d d'

theorem registers (n : ℕ) : (Op.registerImage (image E) (.ok ())).handed E 1000 env
    (atEpoch n recovered) = some (atEpoch n (registered E)) := by
  simp [Op.handed, registerImage, ApprovedImage.fromRegistration, env, image_intact, handedState,
    recovered, registered, atEpoch, ProviderState.initial, bind, Except.bind, pure, Except.pure]

/-- INTERNAL: the operation is provisioned. -/
theorem provisions (n : ℕ) : (Op.provisionOperation draft verifier true true).handed E 1000 env
    (atEpoch n (registered E)) = some (atEpoch n (provisioned E)) := by
  have hid : (image E).id = draft.imageId := rfl
  have heligible : eligible verifier (policy E) = true := rfl
  simp [Op.handed, provisionOperation, env, fromDraft_draft, handedState, registered, recovered,
    provisioned, atEpoch, ProviderState.initial, pure, Except.pure, hid, heligible, upsertOperation]

/-- INTERNAL: the request is created. -/
theorem creates (n : ℕ) : (Op.createDirect 1000 ⟨"store", none, []⟩ 10 100 true).handed E 1000 env
    (atEpoch n (provisioned E)) = some (holdingAt E n (submittedAt E n)) := by
  have hid : (policy E).id = "store" := rfl
  have hoperation : validOperationId "store" = true := by decide +kernel
  have hargs : (policy E).normalizeArgs [] = some [] := rfl
  simp only [Op.handed, createDirect, createOwned, hoperation, Bool.not_true, Option.any_none,
    Bool.or_false, Bool.false_eq_true, if_false, agentCurrent, Option.all_none,
    show (atEpoch n (provisioned E)).operations = [policy E] from rfl, List.find?_cons, hid,
    decide_true, hargs, show env.random = some random from rfl, bind, Except.bind, pure,
    Except.pure, handedState]
  rfl

/-- INTERNAL: the approval of the pending request. -/
theorem approves (n : ℕ) : (Op.decideDirect (bindingAt E n) true none 11).handed E 1000 env
    (holdingAt E n (submittedAt E n)) = some (holdingAt E n (approvedAt E n)) := by
  have hvisible := visibleDirect_holdingAt E n (submittedAt E n) rfl rfl
  have hrequest := request_holdingAt E n (submittedAt E n)
  have hid : (bindingAt E n).requestId = requestId := rfl
  have hhuman : bindingHuman 1000 (bindingAt E n) = 1000 := rfl
  have hpolicy : (holdingAt E n (submittedAt E n)).operations.find?
      (·.id = (submittedAt E n).review.operation) = some (policy E) := by
    rw [show (submittedAt E n).review.operation = (policy E).id from rfl,
      show (holdingAt E n (submittedAt E n)).operations = [policy E] from rfl]
    simp
  have hrevision : (policy E).revision = (submittedAt E n).review.policyDigest := rfl
  have hprepared : prepareDirect 1000 (holdingAt E n (submittedAt E n)) 1000 requestId =
      .ok (bindingAt E n) := by
    simp only [prepareDirect, hvisible, hpolicy, bind, Except.bind, pure, Except.pure,
      show agentCurrent (holdingAt E n (submittedAt E n)) (submittedAt E n).agentOwner = true from rfl,
      show (submittedAt E n).review.status = .pending from rfl,
      show (submittedAt E n).lifecycleEpoch =
        (holdingAt E n (submittedAt E n)).lifecycleEpoch from rfl,
      hrevision, show (policy E).validatesArgs (submittedAt E n).review.arguments = true from rfl,
      ne_eq, not_true_eq_false, if_false, Bool.not_true, Bool.false_eq_true]
    rfl
  simp only [Op.handed, decideDirect, hid, hhuman, hprepared, hrequest, bind, Except.bind, pure,
    Except.pure, ne_eq, not_true_eq_false, if_false, Option.isSome_none, Bool.false_and,
    Bool.false_eq_true, if_true, RequestRecord.transition, Except.mapError, handedState]
  exact congrArg some (setRequest_holdingAt E n (submittedAt E n) (approvedAt E n))

/-- INTERNAL: the claim of the approved request, with its answer. -/
theorem claims_eval (n : ℕ) : (Op.claimExecution 1000 requestId).eval E 1000 env
    (holdingAt E n (approvedAt E n)) = .ok ⟨bindingAt E n, some (holdingAt E n (claimedAt E n))⟩ := by
  simp only [Op.eval, claimExecution, ProviderState.direct, request_holdingAt, Option.bind_some,
    visibleDirect_holdingAt E n (approvedAt E n) rfl rfl, bind, Except.bind, pure, Except.pure,
    show agentCurrent (holdingAt E n (approvedAt E n)) (approvedAt E n).agentOwner = true from rfl,
    show (approvedAt E n).review.status = .approved from rfl,
    show (approvedAt E n).executionClaimed = false from rfl,
    show (approvedAt E n).lifecycleEpoch = (holdingAt E n (approvedAt E n)).lifecycleEpoch from rfl,
    show (approvedAt E n).approval = some (approvedAt E n).approvalBinding from rfl,
    DirectStatus.lifecycle, ne_eq, not_true_eq_false, decide_false, Bool.or_false, Bool.not_true,
    Bool.false_eq_true, if_false, Except.ok.injEq, Handed.mk.injEq, Option.some.injEq]
  exact ⟨rfl, setRequest_holdingAt E n (approvedAt E n) (claimedAt E n)⟩

theorem claims : (Op.claimExecution 1000 requestId).handed E 1000 env (holding E (approved E)) =
    some (holding E (claimed E)) := congrArg handedState (claims_eval E 1)

/-- INTERNAL: the start of the claimed request. -/
theorem starts : (Op.executionStarted (binding E)).handed E 1000 env (holding E (claimed E)) =
    some (holding E (started E)) := by
  simp only [Op.handed, executionStarted, show (binding E).requestId = requestId from rfl,
    request_holding, bind, Except.bind, pure, Except.pure,
    show (claimed E).executionClaimed = true from rfl,
    show (claimed E).approval = some (binding E) from rfl,
    show (claimed E).review.status = .approved from rfl, show env.wall 0 = some 10 from rfl,
    RequestRecord.transition, show (claimed E).legal .running = true from rfl, Except.mapError,
    ne_eq, not_true_eq_false, decide_false, Bool.or_false, Bool.not_true, Bool.false_eq_true,
    if_false, if_true, handedState]
  exact congrArg some (setRequest_holding E (claimed E) (started E))

/-- INTERNAL: the marker of the creation. -/
theorem marks : (Op.beginWrite (binding E)).handed E 1000 env (holding E (started E)) =
    some (holding E (marked E)) := by
  have hothers : (holding E (started E)).requests.filter (·.id ≠ requestId) = [] := by
    simp [holding]
  simp only [Op.handed, beginWrite, show (binding E).requestId = requestId from rfl,
    request_holding, bind, Except.bind, pure, Except.pure, hothers, List.any_nil,
    show (started E).executionClaimed = true from rfl,
    show (started E).approval = some (binding E) from rfl,
    show (started E).review.status = .running from rfl,
    show (started E).writeReceipt = none from rfl,
    show (started E).review.create = some effect from rfl, Option.isSome_none,
    ne_eq, not_true_eq_false, decide_false, Bool.or_false, Bool.not_true, Bool.false_eq_true,
    if_false, handedState]
  exact congrArg some (setRequest_holding E (started E) (marked E))

/-- INTERNAL: the end of the execution. -/
theorem rejects : (rejection E).handed E 1000 env (holding E (marked E)) =
    some (holding E (rejected E)) := by
  simp only [rejection, Op.handed, finishExecution, show (binding E).requestId = requestId from rfl,
    request_holding, bind, Except.bind, pure, Except.pure,
    show (marked E).executionClaimed = true from rfl,
    show (marked E).approval = some (binding E) from rfl,
    show (marked E).review.status = .running from rfl, show env.wall 0 = some 10 from rfl,
    DirectStatus.isCompleted, DirectStatus.isFailed, RequestRecord.transition,
    show (marked E).legal (.failed .executionRejected) = true from rfl, Except.mapError,
    reduceCtorEq, ne_eq, not_true_eq_false, decide_false, decide_true, Bool.or_false, Bool.or_true,
    Bool.and_false, Bool.not_true, Bool.false_eq_true, if_false, if_true, handedState]
  exact congrArg some (setRequest_holding E (marked E) (rejected E))

/-- INTERNAL: `record_write` has no guard against a request that ended. -/
theorem records (d : DirectRecord) (receipt : WriteReceipt) (hreceipt : d.writeReceipt = some receipt)
    (hitem : receipt.itemId = none) :
    (lateRecord E).handed E 1000 env (holding E d) = some (holding E { d with
      writeReceipt := some { receipt with itemId := none, status := .failed } }) := by
  simp only [lateRecord, Op.handed, recordWrite, show (binding E).requestId = requestId from rfl,
    request_holding, pure, Except.pure, hreceipt, hitem, Option.any_none, Bool.false_eq_true,
    if_false, handedState]
  exact congrArg some (setRequest_holding E d { d with
    writeReceipt := some { receipt with itemId := none, status := .failed } })

/-- INTERNAL: every operation up to the marker succeeds. -/
theorem creation_commits (ops : List Op) (s : ProviderState)
    (hrest : Commits E 1000 env (holding E (marked E)) ops s) :
    Commits E 1000 env recovered (creation E ++ ops) s := by
  have hone : ∀ s : ProviderState, s.approvedImages = [image E] → ImagesUnchanged E disk s :=
    fun s hs => imagesUnchanged E s (Or.inr hs)
  have hfresh : FreshRequest env (provisioned E) := by
    intro _ _ r hr
    simp [provisioned, registered, recovered, ProviderState.initial] at hr
  refine .cons _ _ _ _ _ (registers E 1) (imagesUnchanged E recovered (Or.inl rfl)) trivial trivial ?_
  refine .cons _ _ _ _ _ (provisions E 1) (hone _ rfl) trivial trivial ?_
  refine .cons _ _ _ _ _ (creates E 1) (hone _ rfl) ⟨by decide, by decide, hfresh⟩ trivial ?_
  refine .cons _ _ _ _ _ (approves E 1) (hone _ rfl) (by simp [CallerArgs]) trivial ?_
  refine .cons _ _ _ _ _ (claims E) (hone _ rfl) trivial trivial ?_
  refine .cons _ _ _ _ _ (starts E) (hone _ rfl) trivial trivial ?_
  exact .cons _ _ _ _ _ (marks E) (hone _ rfl) trivial trivial hrest

/-- INTERNAL: the first start. -/
theorem first_start : step E 1000 Store.initial (.restart env .committed) = ⟨recovered, false⟩ ∧
    StateInv E 1000 recovered := by
  have himages : ImagesUnchanged E disk Store.initial.durable := imagesUnchanged E _ (Or.inl rfl)
  have hover : Event.handsOver E 1000 Store.initial (.restart env .committed) = some recovered := rfl
  obtain ⟨hinv, himages'⟩ := handsOver_stateInv Store.initial (.restart env .committed) recovered
    (initial_stateInv E 1000) himages trivial hover
  refine ⟨?_, hinv⟩
  simp only [step, hover, Event.opened, Event.outcome, Store.writeState,
    hinv.validateForOwner _ himages', Bool.not_true, Bool.false_eq_true, if_false]

/-- The events of the run that ends with `ops`. -/
def events (ops : List Op) : List Event :=
  .restart env .committed :: committed env (creation E ++ ops)

/-- INTERNAL: the run is legitimate and ends where its operations lead. -/
theorem run_events (ops : List Op) (s : ProviderState)
    (hrest : Commits E 1000 env (holding E (marked E)) ops s) :
    Along (step E 1000) (fun store event => Legitimate E store event ∧ RecordsInTime store event)
        Store.initial (events E ops) ∧
      run E 1000 Store.initial (events E ops) = ⟨s, false⟩ := by
  obtain ⟨hstep, hinv⟩ := first_start E
  obtain ⟨halong, hrun⟩ := (creation_commits E ops s hrest).run hinv
  refine ⟨⟨⟨imagesUnchanged E _ (Or.inl rfl), trivial⟩, ?_⟩, ?_⟩
  · rw [hstep]
    exact halong
  · unfold run at hrun
    unfold run events
    rw [List.foldl_cons, hstep, hrun]

/-- INTERNAL: what `record_write` hands over in a legitimate state with one request. -/
theorem handsOver_lateRecord (d : DirectRecord) (receipt : WriteReceipt)
    (hinv : StateInv E 1000 (holding E d)) (hreceipt : d.writeReceipt = some receipt)
    (hitem : receipt.itemId = none) :
    Event.handsOver E 1000 ⟨holding E d, false⟩ (.op (lateRecord E) env .committed) =
      some (holding E { d with
        writeReceipt := some { receipt with itemId := none, status := .failed } }) := by
  have himages : ImagesUnchanged E disk (holding E d) := imagesUnchanged E _ (Or.inr rfl)
  have hread := hinv.tryFrom_wire disk himages
  have hvalid := hinv.validateForOwner disk himages
  have hrecords := records E d receipt hreceipt hitem
  simp only [Event.handsOver, Event.reads, Event.opened, Event.env, show env.disk = disk from rfl,
    Store.readState, hread, hvalid, Bool.false_eq_true, if_false, if_true, Option.bind_some,
    Event.handed, hrecords]

end Creation

/-- The SHA-256 digests of the four documents the run hashes, told apart by their lengths: the
executable, the policy, the arguments and the record. No signature is checked. -/
def externals : Externals where
  sha256 data := match data.length with
    | 16 => #v[160, 55, 191, 110, 149, 139, 214, 178, 253, 204, 74, 149, 199, 220, 111, 119,
        53, 115, 10, 227, 61, 32, 129, 154, 5, 106, 93, 160, 80, 208, 91, 142]
    | 550 => #v[42, 40, 37, 143, 228, 191, 249, 242, 72, 161, 180, 1, 35, 159, 201, 89,
        95, 30, 105, 227, 134, 145, 73, 75, 220, 58, 66, 152, 205, 185, 186, 187]
    | 6 => #v[23, 136, 249, 147, 180, 119, 46, 53, 22, 245, 64, 153, 146, 56, 108, 238,
        20, 102, 143, 152, 202, 35, 119, 54, 70, 241, 103, 10, 143, 250, 248, 217]
    | _ => #v[249, 121, 154, 114, 138, 209, 2, 17, 23, 117, 130, 4, 104, 163, 202, 131,
        195, 74, 147, 246, 210, 39, 129, 195, 232, 145, 204, 137, 225, 5, 136, 208]
  verifyingKey _ := false
  verifyStrict _ _ _ := false

end Sample

/-- The theorem at the run that leads to the marker of a creation, and at the record of its
failure. -/
theorem legitimate_operations_validate_creation :
    Along (step Sample.externals 1000) (fun store event => Legitimate Sample.externals store event ∧
        RecordsInTime store event) Store.initial (Sample.events Sample.externals []) ∧
    ∃ s', Event.handsOver Sample.externals 1000
        (run Sample.externals 1000 Store.initial (Sample.events Sample.externals []))
        (.op (Sample.lateRecord Sample.externals) Sample.env .committed) = some s' ∧
      s'.validateForOwner Sample.externals Sample.disk 1000 = true := by
  obtain ⟨halong, hrun⟩ := Sample.run_events Sample.externals [] _ (.nil _)
  have hinv := run_stateInv Sample.externals 1000 _ halong
  have htheorem := (legitimate_operations_validate Sample.externals 1000 _ halong).2
    (.op (Sample.lateRecord Sample.externals) Sample.env .committed)
  rw [hrun] at hinv htheorem ⊢
  have hover := Sample.handsOver_lateRecord Sample.externals (Sample.marked Sample.externals) _ hinv
    rfl rfl
  refine ⟨halong, _, hover, htheorem _ ⟨?_, ?_⟩ ?_ hover⟩
  · exact Sample.imagesUnchanged Sample.externals _ (Or.inr rfl)
  · exact ⟨by simp, by simp⟩
  · intro d hd
    rw [show (Sample.binding Sample.externals).requestId = Sample.requestId from rfl,
      ProviderState.direct, Sample.request_holding] at hd
    rw [← Option.some.inj hd]
    rfl

/-- Without the condition on `record_write` the statement fails, whatever the hash: after the end of
an execution its result may still be recorded, and the receipt then differs from the one in the last
event of the history.
SRCLINE: provider.rs:1010-1040 -/
theorem late_record_refused :
    ¬ ∃ E : Externals, ∀ (ownerUid : UInt32) (events : List Event) (event : Event)
      (s' : ProviderState), Along (step E ownerUid) (Legitimate E) Store.initial events →
      Legitimate E (run E ownerUid Store.initial events) event →
      event.handsOver E ownerUid (run E ownerUid Store.initial events) = some s' →
      s'.validateForOwner E event.env.disk ownerUid = true := by
  rintro ⟨E, hclaim⟩
  have hreject : Commits E 1000 Sample.env (Sample.holding E (Sample.marked E)) [Sample.rejection E]
      (Sample.holding E (Sample.rejected E)) :=
    .cons _ _ _ _ _ (Sample.rejects E) (Sample.imagesUnchanged E _ (Or.inr rfl)) rfl trivial
      (.nil _)
  obtain ⟨halong, hrun⟩ := Sample.run_events E [Sample.rejection E] _ hreject
  have hinv := run_stateInv E 1000 _ halong
  rw [hrun] at hinv
  have hover := Sample.handsOver_lateRecord E (Sample.rejected E) _ hinv rfl rfl
  have hvalid := hclaim 1000 (Sample.events E [Sample.rejection E])
    (.op (Sample.lateRecord E) Sample.env .committed) _ (halong.imp fun _ _ h => h.1)
    (by rw [hrun]; exact ⟨Sample.imagesUnchanged E _ (Or.inr rfl), by simp, by simp⟩)
    (by rw [hrun]; exact hover)
  simp only [ProviderState.validateForOwner, Bool.and_eq_true, List.all_eq_true] at hvalid
  have hrequest := hvalid.2 _ (List.mem_singleton.mpr rfl)
  simp only [RequestRecord.validate, DirectRecord.validate, Bool.and_eq_true] at hrequest
  obtain ⟨⟨-, ⟨⟨⟨⟨⟨⟨⟨⟨⟨-, hhistory⟩, -⟩, -⟩, -⟩, -⟩, -⟩, -⟩, -⟩, -⟩⟩, -⟩ := hrequest
  obtain ⟨e, he, hreceipt⟩ := ((validateHistory_iff _ rfl).mp hhistory).last rfl
  rw [show (Sample.rejected E).audit.getLast? = some _ from List.getLast?_concat] at he
  rw [← Option.some.inj he] at hreceipt
  have hstatus : some WriteStatus.uncertain = some WriteStatus.failed :=
    congrArg (Option.map WriteReceipt.status) hreceipt
  simp at hstatus

end VaultAccess.Analysis
