import VaultAccess.Analysis.Validation

/-!
# Old records and the recovery of a start

A record stored without a history version is migrated when it is read: its decisions become events
whose cause stays unknown. What comes out is accepted by the validator's history check, so it is read
back as it is once it is stored again. The recovery of a start adds one event to a record that may
still execute; there is always room for it, because such a record has three events at most.
-/

set_option autoImplicit false

namespace VaultAccess.Analysis

open VaultAccess.Library VaultAccess.Model

/-! ## The decoder -/

/-- The time a stored entry of the audit carries. -/
def storedTime : StoredAudit → Option ℕ
  | .current event => event.atUnixSeconds
  | .legacy event => some event.atUnixSeconds

/-- INTERNAL: the entries of an audit are read as they are, or not at all. -/
theorem mapM_stored_tryFrom {l l' : List StoredAudit} (h : l.mapM StoredAudit.tryFrom = some l') :
    l' = l := by
  rw [mapM_eq_some_iff] at h
  induction h with
  | nil => rfl
  | @cons stored stored' rest rest' hread _ ih =>
    rw [ih]
    cases stored with
    | legacy event => rw [← Option.some.inj hread]
    | current event =>
      obtain ⟨event', hevent', rfl⟩ := Option.map_eq_some_iff.mp hread
      rw [eq_of_tryFrom_event event event' hevent']

/-- INTERNAL: the loop gives each event the time of its decision. -/
theorem legacyLoop_times (d : DirectRecord) (index : ℕ) (previous final : DirectStatus)
    (l : List StoredAudit) (events : List HistoryEvent)
    (h : d.legacyLoop index previous l = some (events, final)) :
    events.map (·.atUnixSeconds) = l.map storedTime := by
  induction l generalizing index previous events with
  | nil =>
    simp only [DirectRecord.legacyLoop, Option.some.injEq, Prod.mk.injEq] at h
    rw [← h.1]
    rfl
  | cons stored rest ih =>
    cases stored with
    | current event => simp [DirectRecord.legacyLoop] at h
    | legacy event =>
      simp only [DirectRecord.legacyLoop] at h
      split_ifs at h
      split at h
      · obtain ⟨⟨later, last⟩, hlater, heq⟩ := Option.map_eq_some_iff.mp h
        obtain ⟨rfl, rfl⟩ := Prod.mk.inj heq
        rw [List.map_cons, List.map_cons, ih _ _ _ hlater]
        rfl
      · exact absurd h (by simp)

/-- What an old record becomes: nothing it says is changed, and its events carry the submission time
and the times of the stored decisions; where none was stored of a decided record, no time. -/
structure Migrated (w : DirectRecordWire) (d : DirectRecord) : Prop where
  status : d.review.status = w.review.status
  ownerUid : d.ownerUid = w.ownerUid
  agentOwner : d.agentOwner = w.agentOwner
  sealing : d.bindingDigest = w.bindingDigest
  claimed : d.executionClaimed = w.executionClaimed
  times : d.audit.map (·.atUnixSeconds) =
    if w.audit = [] ∧ w.review.status ≠ .pending then [none]
    else some w.createdAtUnixSeconds :: w.audit.map storedTime

/-- INTERNAL: what the decoder of an old record checked. -/
theorem tryFrom_old {w : DirectRecordWire} {d : DirectRecord} (hversion : w.historyVersion = none)
    (h : w.tryFrom = some d) : w.review.status.exitInRange = true ∧ d.validateHistory = true ∧
      ∃ events, w.legacyAudit = some events ∧ d = { w.base with audit := events } := by
  simp only [DirectRecordWire.tryFrom, hversion, Option.bind_eq_bind, Option.bind_eq_some_iff] at h
  obtain ⟨status, hstatus, audit, haudit, h⟩ := h
  obtain rfl := mapM_stored_tryFrom haudit
  have hexit : w.review.status.exitInRange = true := by
    unfold DirectStatus.tryFrom at hstatus
    split_ifs at hstatus with hexit
    exact hexit
  split_ifs at h
  obtain ⟨events, hevents, h⟩ := Option.bind_eq_some_iff.mp h
  split_ifs at h with hvalid
  rw [← Option.some.inj h]
  exact ⟨hexit, hvalid, events, hevents, rfl⟩

/-- INTERNAL: **what an old record becomes.** -/
theorem migrated_of_tryFrom {w : DirectRecordWire} {d : DirectRecord}
    (hversion : w.historyVersion = none) (h : w.tryFrom = some d) : Migrated w d := by
  obtain ⟨-, -, events, haudit, rfl⟩ := tryFrom_old hversion h
  refine ⟨rfl, rfl, rfl, rfl, rfl, ?_⟩
  unfold DirectRecordWire.legacyAudit at haudit
  simp only at haudit
  split at haudit
  · exact absurd haudit (by simp)
  split at haudit
  · exact absurd haudit (by simp)
  next later last hloop =>
  have htimes := legacyLoop_times _ _ _ _ _ _ hloop
  split at haudit
  · next hdecided =>
    simp only [Bool.and_eq_true, List.isEmpty_iff, decide_eq_true_eq] at hdecided
    obtain ⟨hempty, hstatus⟩ := hdecided
    rw [if_pos ⟨hempty, hstatus⟩, ← Option.some.inj haudit]
    simp only [List.map_cons, htimes, hempty, List.map_nil]
  · next hdecided =>
    simp only [Bool.and_eq_true, List.isEmpty_iff, decide_eq_true_eq] at hdecided
    split at haudit
    · exact absurd haudit (by simp)
    · rw [if_neg (by exact hdecided), ← Option.some.inj haudit]
      simp only [List.map_cons, htimes]
      rfl

/-- INTERNAL: **what was migrated is read back as it is.** -/
theorem tryFrom_wire_of_old {w : DirectRecordWire} {d : DirectRecord} (hversion : w.historyVersion = none)
    (h : w.tryFrom = some d) : d.wire.tryFrom = some d := by
  obtain ⟨hexit, hvalid, events, -, rfl⟩ := tryFrom_old hversion h
  have hversion := version_of_validateHistory hvalid
  exact ((validateHistory_iff _ hversion).mp hvalid).tryFrom_wire hversion hexit

/-! ## Room for the recovery -/

/-- How far a status is. -/
def rank : DirectStatus → ℕ
  | .pending => 0
  | .approved => 1
  | .running => 2
  | .denied | .expired | .completed _ | .failed _ => 3

theorem rank_lt_of_statusFollows {before after : DirectStatus}
    (h : statusFollows before after = true) : rank before < rank after := by
  cases before <;> cases after <;> simp [statusFollows, rank] at h ⊢

/-- INTERNAL: on the way to a status that is not terminal every event moves on. -/
theorem historyLoop_rank (d : DirectRecord) (ordinal : ℕ) (previous final : DirectStatus)
    (l : List HistoryEvent) (hfinal : final.isTerminal = false)
    (h : d.historyLoop (ordinal + 1) (some previous) l = some (some final)) :
    rank previous + l.length ≤ rank final := by
  induction l generalizing ordinal previous with
  | nil =>
    simp only [DirectRecord.historyLoop, Option.some.injEq] at h
    rw [h, List.length_nil, Nat.add_zero]
  | cons e l ih =>
    rw [historyLoop_cons] at h
    split_ifs at h with hcheck
    simp only [eventOk, Nat.add_one_ne_zero, if_false, Bool.and_eq_true,
      HistoryEvent.follows] at hcheck
    rcases Bool.or_eq_true_iff.mp hcheck.2 with hreconciled | hfollows
    · -- a reconciliation keeps a terminal status, and nothing leaves one
      simp only [Bool.and_eq_true, decide_eq_true_eq, Option.any_some] at hreconciled
      rw [← hreconciled.2] at h
      have hsame := historyLoop_terminal d (ordinal + 1) previous _ l hreconciled.1.2 h
      rw [Option.some.inj hsame, hreconciled.1.2] at hfinal
      exact absurd hfinal (by simp)
    · split at hfollows
      · next before after hbefore hafter =>
        obtain rfl := Option.some.inj hbefore
        rw [hafter] at h
        have hlater := ih (ordinal + 1) after h
        have hrank := rank_lt_of_statusFollows hfollows
        rw [List.length_cons]
        omega
      · exact absurd hfollows (by simp)

/-- INTERNAL: **a record that may still execute has three events at most.** -/
theorem HistoryValid.length_le {d : DirectRecord} (h : HistoryValid d)
    (hstatus : d.review.status.isTerminal = false) : d.audit.length ≤ 3 := by
  have hloop := h.loop
  cases haudit : d.audit with
  | nil => exact absurd haudit h.nonempty
  | cons first rest =>
    rw [haudit, historyLoop_cons] at hloop
    split_ifs at hloop
    have hrank : rank d.review.status ≤ 2 := by
      cases hs : d.review.status <;> simp [hs, DirectStatus.isTerminal, rank] at hstatus ⊢
    cases hfirst : first.status with
    | some status =>
      rw [hfirst] at hloop
      have hlength := historyLoop_rank d 0 status d.review.status rest hstatus hloop
      rw [List.length_cons]
      omega
    | none =>
      -- an event without a status can only be the last one, and then the history tells no status
      rw [hfirst] at hloop
      cases rest with
      | nil => exact absurd hloop (by simp [DirectRecord.historyLoop])
      | cons second rest =>
        rw [historyLoop_cons] at hloop
        split_ifs at hloop with hcheck
        simp [eventOk, HistoryEvent.follows] at hcheck

/-! ## The recovery -/

section Recovery

variable {E : Externals} {pairings : List AgentBinding} {epoch : ℕ} {id : String} {d : DirectRecord}
  {r : RequestRecord} {env : Env}

theorem RecordChecked.later (h : RecordChecked E id epoch d) : RecordChecked E id (epoch + 1) d :=
  { h with reached := Nat.le_succ_of_le h.reached }

/-- INTERNAL: **the recovered record passes the validator in the next epoch.** -/
theorem RecordChecked.recovered (h : RecordChecked E id epoch d) {next : DirectStatus}
    (hnext : next = .expired ∨ next = .failed .observationLost)
    (hfollows : statusFollows d.review.status next = true) (now : ℕ) :
    RecordChecked E id (epoch + 1) (d.advance next .recovered now) := by
  have hterminal : next.isTerminal = true := by rcases hnext with rfl | rfl <;> rfl
  have hexit : next.exitInRange = true := by rcases hnext with rfl | rfl <;> rfl
  have hresult : outcome next .recovered = .recovered := by rcases hnext with rfl | rfl <;> rfl
  have happroval : (d.advance next .recovered now).approval = none := by
    rcases hnext with rfl | rfl <;> rfl
  have hstatus : (d.advance next .recovered now).review.status = next := rfl
  have hvalid := snapshot_valid h.core d.audit.length now _ _
    (outcome_consistent next .recovered hexit)
  have hmatches := snapshot_matchesRecord d d.audit.length now _ _ none hvalid
  have hreceipts : ∀ e ∈ d.audit, e.writeReceipt.all
      (fun receipt => receiptExtends receipt d.writeReceipt) = true := by
    intro e he
    have hfits := matchesRecord_of_historyLoop d 0 none _ d.audit h.history.loop e he
    unfold HistoryEvent.matchesRecord at hfits
    simp only [Bool.and_eq_true] at hfits
    exact hfits.1.1
  have hlength := h.history.length_le (isTerminal_of_statusFollows _ _ hfollows)
  have hlast : (HistoryEvent.snapshot d d.audit.length now (outcome next .recovered)
      (some next)).writeReceipt.all (fun receipt => receiptExtends receipt d.writeReceipt) = true := by
    unfold HistoryEvent.matchesRecord at hmatches
    simp only [Bool.and_eq_true] at hmatches
    exact hmatches.1.1
  refine ⟨h.core.of_core_eq rfl, ?_, ?_, ?_, h.receipt, hexit, Nat.le_succ_of_le h.reached⟩
  · refine h.history.push rfl rfl (fun hclaimed => hclaimed) hreceipts rfl
      (matchesRecord_of_core_eq rfl hmatches hlast) ?_ ?_ rfl (by omega) rfl
    · -- an end that the recovery records needs no claim
      simp [HistoryEvent.claimConsistent, HistoryEvent.snapshot, hresult]
    · simp [HistoryEvent.follows, HistoryEvent.snapshot, hfollows]
  · intro b hb
    exact absurd (happroval.symm.trans hb) (by simp)
  · rw [hstatus]
    rintro (rfl | rfl) <;> exact absurd hterminal (by simp [DirectStatus.isTerminal])

/-- A record that an execution has claimed is not pending any more. -/
def ClaimedLater (r : RequestRecord) : Prop :=
  ∀ d, r.direct = some d → d.executionClaimed = true → d.review.status ≠ .pending

/-- INTERNAL: where a request that may still execute goes at a start. -/
theorem recovery_follows (hstatus : r.status = d.review.status.lifecycle)
    (hopen : r.status.isUnexecuted = true) (hclaimed : d.executionClaimed = true →
      d.review.status ≠ .pending) :
    let next : DirectStatus :=
      if d.executionClaimed || r.status = .running then .failed .observationLost else .expired
    d.legal next = true ∧ statusFollows d.review.status next = true := by
  rw [hstatus] at hopen ⊢
  cases hs : d.review.status with
  | pending =>
    have hnot : d.executionClaimed = false := by
      by_contra htrue
      exact hclaimed (by simpa using htrue) hs
    simp [hnot, DirectRecord.legal, statusFollows, hs, DirectStatus.lifecycle]
  | approved =>
    cases hc : d.executionClaimed <;>
      simp [hc, DirectRecord.legal, statusFollows, hs, DirectStatus.lifecycle]
  | running => simp [DirectRecord.legal, statusFollows, hs, DirectStatus.lifecycle]
  | denied => simp [hs, DirectStatus.lifecycle, RequestLifecycleStatus.isUnexecuted] at hopen
  | expired => simp [hs, DirectStatus.lifecycle, RequestLifecycleStatus.isUnexecuted] at hopen
  | completed exitCode =>
    simp [hs, DirectStatus.lifecycle, RequestLifecycleStatus.isUnexecuted] at hopen
  | failed reason => simp [hs, DirectStatus.lifecycle, RequestLifecycleStatus.isUnexecuted] at hopen

/-- INTERNAL: **the recovery of one request** succeeds, and what it leaves passes the validator. -/
theorem invalidateRequest_recovers (h : r.validate E pairings epoch = true) (hclear : ClaimedLater r)
    {index now : ℕ} (hnow : env.wall index = some now) :
    ∃ r', invalidateRequest env true index r = .ok r' ∧ r'.id = r.id ∧
      r'.replayDigest = r.replayDigest ∧ r'.validate E pairings (epoch + 1) = true := by
  unfold invalidateRequest
  cases hopen : r.status.isUnexecuted with
  | false =>
    refine ⟨r, rfl, rfl, rfl, ?_⟩
    unfold RequestRecord.validate at h ⊢
    cases hd : r.direct with
    | none => rfl
    | some d =>
      simp only [hd, Bool.and_eq_true] at h ⊢
      obtain ⟨⟨⟨howner, hconsistent⟩, hvalid⟩, -⟩ := h
      refine ⟨⟨⟨howner, hconsistent⟩, validate_iff.mpr (validate_iff.mp hvalid).later⟩, ?_⟩
      simp [RequestRecord.epochValid, hopen]
  | true =>
    simp only [Bool.not_true, Bool.false_eq_true, if_false, Bool.false_and]
    cases hd : r.direct with
    | none =>
      refine ⟨{ r with status := .invalidated }, by rw [hd], rfl, ?_, ?_⟩
      · simp [RequestRecord.replayDigest, hd]
      · simp [RequestRecord.validate, hd]
    | some d =>
      unfold RequestRecord.validate at h
      simp only [hd, Bool.and_eq_true, consistentStatus, decide_eq_true_eq] at h
      obtain ⟨⟨⟨howner, hconsistent⟩, hvalid⟩, -⟩ := h
      obtain ⟨hlegal, hfollows⟩ := recovery_follows hconsistent hopen (hclear d hd)
      let next : DirectStatus :=
        if d.executionClaimed || r.status = .running then .failed .observationLost else .expired
      have hnext : next = .expired ∨ next = .failed .observationLost := by
        simp only [next]
        split_ifs
        · exact Or.inr rfl
        · exact Or.inl rfl
      have hchecked := (validate_iff.mp hvalid).recovered hnext hfollows now
      refine ⟨{ r with status := next.lifecycle, direct := some (d.advance next .recovered now) },
        ?_, rfl, ?_, ?_⟩
      · simp only [hnow, RequestRecord.transition, hd]
        rw [if_pos hlegal]
        rfl
      · simp only [RequestRecord.replayDigest, hd]
        rfl
      · simp only [RequestRecord.validate, Bool.and_eq_true]
        refine ⟨⟨⟨howner, decide_eq_true rfl⟩, validate_iff.mpr hchecked⟩, ?_⟩
        rcases hnext with hnext | hnext <;>
          simp [RequestRecord.epochValid, hnext, DirectStatus.lifecycle,
            RequestLifecycleStatus.isUnexecuted]

/-- INTERNAL: an update that keeps identifiers and replay markers. -/
theorem keys_of_kept {l l' : List RequestRecord} {P : RequestRecord → Prop}
    (h : List.Forall₂ (fun r r' => r'.id = r.id ∧ r'.replayDigest = r.replayDigest ∧ P r') l l') :
    l'.map (·.id) = l.map (·.id) ∧
      l'.filterMap RequestRecord.replayDigest = l.filterMap RequestRecord.replayDigest ∧
      ∀ r' ∈ l', P r' := by
  induction h with
  | nil => exact ⟨rfl, rfl, by simp⟩
  | cons hab _ ih =>
    refine ⟨by rw [List.map_cons, List.map_cons, hab.1, ih.1], ?_, ?_⟩
    · rw [List.filterMap_cons, List.filterMap_cons, hab.2.1, ih.2.1]
    · intro r' hr'
      rcases List.mem_cons.mp hr' with rfl | hmem
      · exact hab.2.2
      · exact ih.2.2 r' hmem

/-- INTERNAL: **the recovery of a start** succeeds on every valid state without a pending record that
is already claimed, if the clock can be read and an epoch is left. -/
theorem recover_ok {ownerUid : UInt32} {disk : Disk} {s : ProviderState}
    (h : s.validateForOwner E disk ownerUid = true) (hclear : ∀ r ∈ s.requests, ClaimedLater r)
    (hclock : ∀ index, (env.wall index).isSome = true) (hepoch : s.lifecycleEpoch + 1 < u64Size) :
    ∃ s', recover env s = .ok ⟨(), some s'⟩ ∧ s'.validateForOwner E disk ownerUid = true := by
  have hparts := h
  simp only [ProviderState.validateForOwner, Bool.and_eq_true, decide_eq_true_eq,
    List.all_eq_true] at hparts
  obtain ⟨⟨⟨⟨⟨⟨⟨⟨⟨hschema, hregistry⟩, himages⟩, hintact⟩, hoperations⟩, hpolicies⟩, hmarkers⟩,
    hreplay⟩, hids⟩, hrequests⟩ := hparts
  have hone : ∀ r ∈ s.requests, ∀ index, ∃ r', invalidateRequest env true index r = .ok r' ∧
      r'.id = r.id ∧ r'.replayDigest = r.replayDigest ∧
      r'.validate E s.pairings (s.lifecycleEpoch + 1) = true := by
    intro r hr index
    obtain ⟨now, hnow⟩ := Option.isSome_iff_exists.mp (hclock index)
    exact invalidateRequest_recovers (hrequests r hr) (hclear r hr) hnow
  obtain ⟨requests, hupdate⟩ := updateRequests_ok (invalidateRequest env true) 0 s.requests
    (fun r hr index => (hone r hr index).imp fun _ h => h.1)
  have hkept : List.Forall₂ (fun r r' => r'.id = r.id ∧ r'.replayDigest = r.replayDigest ∧
      r'.validate E s.pairings (s.lifecycleEpoch + 1) = true) s.requests requests := by
    refine forall₂_imp_mem (forall₂_updateRequests _ 0 s.requests requests hupdate) ?_
    rintro r hr r' ⟨index, hindex⟩
    obtain ⟨r'', hsame, hkept⟩ := hone r hr index
    obtain rfl := Except.ok.inj (hindex.symm.trans hsame)
    exact hkept
  obtain ⟨hsameIds, hsameReplay, hvalid⟩ := keys_of_kept hkept
  refine ⟨{ s with lifecycleEpoch := s.lifecycleEpoch + 1, requests := requests }, ?_, ?_⟩
  · simp only [recover, invalidate, checkedAdd, if_pos hepoch, hupdate, bind, Except.bind, pure,
      Except.pure]
  · simp only [ProviderState.validateForOwner, Bool.and_eq_true, decide_eq_true_eq, List.all_eq_true]
    refine ⟨⟨⟨⟨⟨⟨⟨⟨⟨hschema, hregistry⟩, himages⟩, hintact⟩, hoperations⟩, hpolicies⟩, hmarkers⟩, ?_⟩,
      ?_⟩, hvalid⟩
    · simpa only [ProviderState.replayMarkers, hsameReplay] using hreplay
    · rw [hsameIds]
      exact hids

end Recovery

/-! ## The main result -/

/-- INTERNAL: a valid request is read back as it is. -/
theorem request_read_back {E : Externals} {pairings : List AgentBinding} {epoch : ℕ}
    {r : RequestRecord} (h : r.validate E pairings epoch = true) : r.wire.tryFrom = some r := by
  obtain ⟨id, status, direct⟩ := r
  cases direct with
  | none => rfl
  | some d =>
    simp only [RequestRecord.validate, Bool.and_eq_true] at h
    have hchecked := validate_iff.mp h.1.2
    have hread := hchecked.history.tryFrom_wire hchecked.core.version hchecked.exit
    simp only [StoredRequest.tryFrom, RequestRecord.wire, Option.map_some, hread]

/-- INTERNAL: **what a run stored is read back as it is.** -/
theorem run_read_back (E : Externals) (ownerUid : UInt32) (events : List Event) :
    ∀ r ∈ (run E ownerUid Store.initial events).durable.requests, r.wire.tryFrom = some r := by
  refine run_invariant (step E ownerUid)
    (fun store => ∀ r ∈ store.durable.requests, r.wire.tryFrom = some r) ?_ Store.initial events
    (fun r hr => absurd hr List.not_mem_nil)
  intro store event h
  rcases @step_durable E ownerUid store event with hsame | ⟨s', -, hvalid, hnext⟩
  · rw [hsame]
    exact h
  · rw [hnext]
    simp only [ProviderState.validateForOwner, Bool.and_eq_true, List.all_eq_true] at hvalid
    exact fun r hr => request_read_back (hvalid.2 r hr)

/-- **Old records migrate.** A record stored without a history version that the decoder accepts keeps
its status, owner, seal and claim; its events carry the submission time and then exactly the times of
the stored decisions, or no time where none was stored of a decided record; stored again it is read
back as it is; and if the validator accepts it, it does not stop the recovery of a start, unless it
is pending although it is claimed. The recovery of a whole state then succeeds. Every record the
provider itself has stored is read back as it is. -/
theorem old_records_migrate (E : Externals) (ownerUid : UInt32) :
    (∀ (w : DirectRecordWire) (d : DirectRecord), w.historyVersion = none → w.tryFrom = some d →
      Migrated w d ∧ d.wire.tryFrom = some d ∧
      ∀ id status pairings epoch, RequestRecord.validate E pairings epoch ⟨id, status, some d⟩ = true →
        ClaimedLater ⟨id, status, some d⟩ → ∀ (env : Env) index now, env.wall index = some now →
        ∃ r', invalidateRequest env true index ⟨id, status, some d⟩ = .ok r' ∧
          r'.validate E pairings (epoch + 1) = true) ∧
    (∀ (env : Env) (disk : Disk) (s : ProviderState), s.validateForOwner E disk ownerUid = true →
      (∀ r ∈ s.requests, ClaimedLater r) → (∀ index, (env.wall index).isSome = true) →
      s.lifecycleEpoch + 1 < u64Size →
      ∃ s', recover env s = .ok ⟨(), some s'⟩ ∧ s'.validateForOwner E disk ownerUid = true) ∧
    ∀ events, ∀ r ∈ (run E ownerUid Store.initial events).durable.requests,
      r.wire.tryFrom = some r := by
  refine ⟨?_, ?_, run_read_back E ownerUid⟩
  · intro w d hversion hd
    refine ⟨migrated_of_tryFrom hversion hd, tryFrom_wire_of_old hversion hd, ?_⟩
    intro id status pairings epoch hvalid hclear env index now hnow
    obtain ⟨r', hr', -, -, hvalid'⟩ := invalidateRequest_recovers hvalid hclear hnow
    exact ⟨r', hr', hvalid'⟩
  · intro env disk s hvalid hclear hclock hepoch
    exact recover_ok hvalid hclear hclock hepoch

namespace Sample

/-- A pending record of the old format that says it is claimed; it holds no decision. -/
def claimedPending : DirectRecordWire :=
  { (submitted externals).wire with
    executionClaimed := true
    audit := []
    historyVersion := none }

/-- What the decoder makes of it. -/
def migrated : DirectRecord := { submitted externals with executionClaimed := true }

/-- The state with this record alone. -/
def stuck : ProviderState :=
  { recovered with requests := [⟨requestId, .pending, some migrated⟩] }

/-- INTERNAL: the submitted record satisfies the invariant. -/
theorem submitted_inv : RecordInv externals requestId (submitted externals) := by
  have hfresh : FreshRequest env (provisioned externals) := by
    intro _ _ r hr
    simp [provisioned, registered, recovered, ProviderState.initial] at hr
  have hone : ∀ s : ProviderState, s.approvedImages = [image externals] →
      ImagesUnchanged externals disk s := fun s hs => imagesUnchanged externals s (Or.inr hs)
  obtain ⟨hstep, hinv⟩ := first_start externals
  have hcommits : Commits externals 1000 env recovered
      [.registerImage (image externals) (.ok ()), .provisionOperation draft verifier true true,
        .createDirect 1000 ⟨"store", none, []⟩ 10 100 true]
      (holdingAt externals 1 (submittedAt externals 1)) := by
    refine .cons _ _ _ _ _ (registers externals 1) (imagesUnchanged externals recovered (Or.inl rfl))
      trivial trivial ?_
    refine .cons _ _ _ _ _ (provisions externals 1) (hone _ rfl) trivial trivial ?_
    exact .cons _ _ _ _ _ (creates externals 1) (hone _ rfl) ⟨by decide, by decide, hfresh⟩ trivial
      (.nil _)
  obtain ⟨halong, hrun⟩ := hcommits.run hinv
  have hlast := run_stateInv externals 1000
    (.restart env .committed :: committed env
      [.registerImage (image externals) (.ok ()), .provisionOperation draft verifier true true,
        .createDirect 1000 ⟨"store", none, []⟩ 10 100 true])
    ⟨⟨imagesUnchanged externals _ (Or.inl rfl), trivial⟩, by rw [hstep]; exact halong⟩
  unfold run at hlast hrun
  rw [List.foldl_cons, hstep, hrun] at hlast
  obtain ⟨d, hd⟩ := hlast.requests ⟨requestId, .pending, some (submitted externals)⟩ (by
    rw [show (holdingAt externals 1 (submittedAt externals 1)).requests =
      [⟨requestId, .pending, some (submitted externals)⟩] from rfl]
    exact List.mem_singleton_self _)
  obtain rfl := Option.some.inj hd.direct
  exact hd.record

/-- INTERNAL: the validator accepts the record. -/
theorem migrated_checked : RecordChecked externals requestId 1 migrated := by
  have hinv := submitted_inv
  have hpending : (submitted externals).review.status = .pending := rfl
  refine ⟨hinv.core.of_core_eq rfl, ?_, hinv.binding, ?_, ?_, hinv.exit, Nat.le_refl 1⟩
  · exact hinv.history.keep rfl rfl rfl (fun _ => rfl)
      (hinv.receipts_extend (by rw [hpending]; rfl) _) (by rw [hpending]; rfl)
  · rintro (hstatus | hstatus)
    · exact absurd (hpending.symm.trans hstatus) (by decide)
    · exact absurd (hpending.symm.trans hstatus) (by decide)
  · intro receipt hreceipt
    exact absurd ((hinv.receipt_none (Or.inl hpending)).symm.trans hreceipt) (by simp)

end Sample

/-- A record of the old format that is pending although it is claimed: the decoder accepts it, with
its submission time although no time of a decision was stored, and the validator accepts the state
that holds it; but the recovery of a start is refused. -/
theorem claimed_pending_not_recovered :
    Sample.claimedPending.historyVersion = none ∧ Sample.claimedPending.audit = [] ∧
      Sample.claimedPending.tryFrom = some Sample.migrated ∧
      Sample.migrated.audit.map (·.atUnixSeconds) = [some 10] ∧
      Sample.migrated.validate Sample.externals Sample.requestId 1 = true ∧
      Sample.stuck.requests = [⟨Sample.requestId, .pending, some Sample.migrated⟩] ∧
      Sample.stuck.validateForOwner Sample.externals Sample.disk 1000 = true ∧
      recover Sample.env Sample.stuck = .error .invalidState := by
  have hchecked := Sample.migrated_checked
  have hvalid : Sample.migrated.validate Sample.externals Sample.requestId 1 = true :=
    validate_iff.mpr hchecked
  have hhistory : Sample.migrated.validateHistory = true :=
    (validateHistory_iff _ hchecked.core.version).mpr hchecked.history
  refine ⟨rfl, rfl, ?_, rfl, hvalid, rfl, ?_, rfl⟩
  · have haudit : DirectRecordWire.legacyAudit Sample.claimedPending = some Sample.migrated.audit := rfl
    have hstored : Sample.claimedPending.audit.mapM StoredAudit.tryFrom = some [] := rfl
    simp only [DirectRecordWire.tryFrom, hstored, Option.bind_eq_bind, Option.bind_some,
      show Sample.claimedPending.review.status.tryFrom = some .pending from rfl,
      show Sample.claimedPending.agentOwner.isSome = false from rfl,
      show Sample.claimedPending.historyVersion = none from rfl, Bool.false_and, Bool.false_eq_true,
      if_false]
    exact Option.bind_eq_some_iff.mpr ⟨Sample.migrated.audit, haudit, if_pos hhistory⟩
  · have hrequest : RequestRecord.validate Sample.externals [] 1
        ⟨Sample.requestId, .pending, some Sample.migrated⟩ = true := by
      simp only [RequestRecord.validate, hvalid, Bool.and_true]
      rfl
    simp only [ProviderState.validateForOwner, Bool.and_eq_true, List.all_eq_true]
    refine ⟨⟨⟨⟨⟨⟨⟨⟨⟨rfl, rfl⟩, rfl⟩, by simp [Sample.stuck, Sample.recovered, ProviderState.initial]⟩,
      rfl⟩, by simp [Sample.stuck, Sample.recovered, ProviderState.initial]⟩,
      by simp [Sample.stuck, Sample.recovered, ProviderState.initial]⟩, rfl⟩, rfl⟩, ?_⟩
    intro r hr
    rw [List.mem_singleton.mp hr]
    exact hrequest

end VaultAccess.Analysis
