import VaultAccess.Analysis.Record

/-!
# The history of a record stays valid

The validator's loop over the events of a record, extended by one event and carried
over from a record to its successor. Together with the phase of the record this
gives the dynamic half of the record's validity after every legitimate change.
-/

set_option autoImplicit false

namespace VaultAccess.Analysis

open VaultAccess.Library VaultAccess.Library.Text VaultAccess.Model

/-! ## The static half of a record -/

/-- The checks of a record that no operation can change. -/
structure CoreValid (E : Externals) (id : String) (d : DirectRecord) : Prop where
  digest : d.bindingDigest = d.digest E
  replay : ∀ marker, d.replayDigest = some marker →
    d.agentOwner.isSome = true ∧ validSha256 marker = true
  requestId : d.review.id = id
  idValid : validRequestId id = true
  ownerUid : d.ownerUid ≠ u32Max
  times : d.createdAtUnixSeconds < d.review.expiresAtUnixSeconds
  owner : d.ownerValid = true
  review : d.review.valid E = true
  version : d.historyVersion = HISTORY_VERSION

/-- INTERNAL: the static half depends on the core only. -/
theorem CoreValid.of_core_eq {E : Externals} {id : String} {d d' : DirectRecord}
    (h : CoreValid E id d) (hcore : core d' = core d) : CoreValid E id d' := by
  have hd : CoreValid E id (core d) :=
    ⟨h.digest, h.replay, h.requestId, h.idValid, h.ownerUid, h.times, h.owner, h.review, h.version⟩
  rw [← hcore] at hd
  exact ⟨hd.digest, hd.replay, hd.requestId, hd.idValid, hd.ownerUid, hd.times, hd.owner, hd.review,
    hd.version⟩

theorem approvalBinding_of_core_eq {d d' : DirectRecord} (hcore : core d' = core d) :
    d'.approvalBinding = d.approvalBinding := by
  have h : (core d').approvalBinding = (core d).approvalBinding := by rw [hcore]
  exact h

theorem shortText_of_reviewText (s : String) (h : reviewText s = true) : shortText s = true := by
  simp only [reviewText, Bool.and_eq_true] at h
  simp only [shortText, Bool.and_eq_true]
  exact h.1

/-- INTERNAL: a valid record's requester makes a valid snapshot. -/
theorem snapshot_requester_valid {E : Externals} {id : String} {d : DirectRecord}
    (h : CoreValid E id d) : (d.owner.snapshot d.review.requester).valid = true := by
  have howner := h.owner
  unfold DirectRecord.ownerValid at howner
  cases hagent : d.agentOwner with
  | none =>
    rw [hagent] at howner
    have hrequester : d.review.requester = HUMAN_REQUESTER := of_decide_eq_true howner
    have htext : shortText HUMAN_REQUESTER = true := by decide
    simp [DirectRecord.owner, hagent, RequestOwner.snapshot, RequesterSnapshot.valid, h.ownerUid,
      hrequester, htext]
  | some owner =>
    rw [hagent] at howner
    simp only [Bool.and_eq_true, AgentOwner.valid] at howner
    obtain ⟨⟨⟨⟨⟨⟨-, hfingerprint⟩, hlabel⟩, -⟩, -⟩, -⟩, -⟩ := howner
    simp only [validLabel, Bool.and_eq_true, decide_eq_true_eq] at hlabel
    have hsize : owner.label.utf8ByteSize ≤ 256 := hlabel.1.1.2.trans (by decide)
    simp [DirectRecord.owner, hagent, RequestOwner.snapshot, RequesterSnapshot.valid, shortText,
      hfingerprint, hsize]
    simpa using hlabel.1.1.1

/-- INTERNAL: the snapshot of a valid record is a valid event. -/
theorem snapshot_valid {E : Externals} {id : String} {d : DirectRecord} (h : CoreValid E id d)
    (ordinal now : ℕ) (result : HistoryOutcome) (status : Option DirectStatus)
    (hresult : result.consistent status = true) :
    (HistoryEvent.snapshot d ordinal now result status).valid = true := by
  have hreview := h.review
  simp only [DirectReview.valid, Bool.and_eq_true] at hreview
  obtain ⟨⟨⟨⟨⟨⟨⟨⟨⟨⟨⟨⟨⟨hoperation, -⟩, -⟩, -⟩, hssh⟩, -⟩, -⟩, hne⟩, hcount⟩, hlabels⟩, -⟩, hpolicy⟩,
    -⟩, -⟩ := hreview
  have hlabels' : d.review.credentials.all (fun c => shortText c.label) = true := by
    rw [List.all_eq_true] at hlabels ⊢
    exact fun c hc => shortText_of_reviewText _ (hlabels c hc)
  have hrequest : validRequestId d.review.id = true := h.requestId ▸ h.idValid
  unfold HistoryEvent.valid
  simp only [Bool.and_eq_true]
  exact ⟨⟨⟨⟨⟨⟨⟨⟨⟨⟨⟨⟨rfl, hrequest⟩, hoperation⟩, hpolicy⟩, decide_eq_true h.times⟩,
    snapshot_requester_valid h⟩, hne⟩, hcount⟩, hlabels'⟩, rfl⟩, hssh⟩, rfl⟩, hresult⟩

/-- INTERNAL: an approval method is allowed on an approval event. -/
theorem snapshot_valid_method {E : Externals} {id : String} {d : DirectRecord}
    (h : CoreValid E id d) (ordinal now : ℕ) (method : Option ApprovalMethod)
    (hkey : ∀ keyId, method = some (.biometric keyId) → validSha256 keyId = true) :
    { HistoryEvent.snapshot d ordinal now .approved (some .approved) with
      approval := method : HistoryEvent }.valid = true := by
  have hbase := snapshot_valid h ordinal now .approved (some .approved) rfl
  cases method with
  | none => exact hbase
  | some m =>
    obtain ⟨keyId⟩ := m
    have hk := hkey keyId rfl
    unfold HistoryEvent.valid at hbase ⊢
    simp only [Bool.and_eq_true] at hbase ⊢
    obtain ⟨⟨hbefore, -⟩, hafter⟩ := hbase
    have hmethod : HistoryEvent.approvalValid
        { HistoryEvent.snapshot d ordinal now .approved (some .approved) with
          approval := some (.biometric keyId) } = true := by
      simp [HistoryEvent.approvalValid, HistoryEvent.snapshot, hk]
    exact ⟨⟨hbefore, hmethod⟩, hafter⟩

/-- **The outcome of a transition agrees with its status.** -/
theorem outcome_consistent (next : DirectStatus) (decision : DecisionOutcome)
    (hexit : next.exitInRange = true) : (Model.outcome next decision).consistent (some next) = true := by
  cases next with
  | pending => rfl
  | approved => rfl
  | denied => rfl
  | running => rfl
  | expired => cases decision <;> rfl
  | failed reason => cases reason <;> cases decision <;> rfl
  | completed exitCode =>
    simp only [DirectStatus.exitInRange, Bool.and_eq_true, decide_eq_true_eq] at hexit
    unfold Model.outcome
    simp only
    split_ifs with hzero
    · simp [HistoryOutcome.consistent, hzero]
    · simp only [HistoryOutcome.consistent, Bool.and_eq_true, decide_eq_true_eq]
      omega

/-! ## Events and records -/

/-- INTERNAL: an event that fits a record fits its successor, receipts apart. -/
theorem matchesRecord_of_core_eq {d d' : DirectRecord} {e : HistoryEvent}
    (hcore : core d' = core d) (h : e.matchesRecord d = true)
    (hreceipt : e.writeReceipt.all (fun receipt => receiptExtends receipt d'.writeReceipt) = true) :
    e.matchesRecord d' = true := by
  have hexpected : ∀ x : DirectRecord,
      { HistoryEvent.snapshot x e.ordinal (e.atUnixSeconds.getD 0) e.outcome e.status with
        atUnixSeconds := e.atUnixSeconds
        writeReceipt := e.writeReceipt
        approval := e.approval : HistoryEvent } =
      { HistoryEvent.snapshot (core x) e.ordinal (e.atUnixSeconds.getD 0) e.outcome e.status with
        atUnixSeconds := e.atUnixSeconds
        writeReceipt := e.writeReceipt
        approval := e.approval } := fun _ => rfl
  unfold HistoryEvent.matchesRecord at h ⊢
  simp only [Bool.and_eq_true] at h ⊢
  refine ⟨⟨hreceipt, h.1.2⟩, ?_⟩
  rw [hexpected, hcore, ← hexpected]
  exact h.2

theorem receiptExtends_self (receipt : WriteReceipt) :
    receiptExtends receipt (some receipt) = true := by
  cases hitem : receipt.itemId <;> simp [receiptExtends, hitem]

/-- INTERNAL: a valid snapshot of a record, with any approval method, fits it. -/
theorem snapshot_matchesRecord (d : DirectRecord) (ordinal now : ℕ) (result : HistoryOutcome)
    (status : Option DirectStatus) (method : Option ApprovalMethod)
    (hvalid : { HistoryEvent.snapshot d ordinal now result status with
      approval := method : HistoryEvent }.valid = true) :
    { HistoryEvent.snapshot d ordinal now result status with
      approval := method : HistoryEvent }.matchesRecord d = true := by
  unfold HistoryEvent.matchesRecord
  simp only [hvalid, Bool.and_true, Bool.and_eq_true]
  refine ⟨?_, decide_eq_true rfl⟩
  cases hreceipt : d.writeReceipt with
  | none => simp [HistoryEvent.snapshot, hreceipt]
  | some receipt => simp [HistoryEvent.snapshot, hreceipt, receiptExtends_self]

/-! ## The validator's loop -/

/-- The checks the loop makes of one event. -/
def eventOk (d : DirectRecord) (ordinal : ℕ) (previous : Option DirectStatus) (e : HistoryEvent) :
    Bool :=
  e.ordinal = ordinal && e.matchesRecord d && e.claimConsistent d.executionClaimed &&
    (if ordinal = 0 then e.isFirst d.createdAtUnixSeconds else e.follows previous)

theorem historyLoop_cons (d : DirectRecord) (ordinal : ℕ) (previous : Option DirectStatus)
    (e : HistoryEvent) (l : List HistoryEvent) : d.historyLoop ordinal previous (e :: l) =
      if eventOk d ordinal previous e then d.historyLoop (ordinal + 1) e.status l else none := rfl

/-- INTERNAL: one more event. -/
theorem historyLoop_append (d : DirectRecord) (ordinal : ℕ) (previous last : Option DirectStatus)
    (l : List HistoryEvent) (e : HistoryEvent) (h : d.historyLoop ordinal previous l = some last)
    (he : eventOk d (ordinal + l.length) last e = true) :
    d.historyLoop ordinal previous (l ++ [e]) = some e.status := by
  induction l generalizing ordinal previous with
  | nil =>
    simp only [DirectRecord.historyLoop, Option.some.injEq] at h
    subst h
    rw [List.nil_append, historyLoop_cons]
    exact if_pos he
  | cons a l ih =>
    rw [List.cons_append]
    rw [historyLoop_cons] at h ⊢
    split_ifs at h with ha
    rw [if_pos ha]
    refine ih (ordinal + 1) a.status h ?_
    rw [List.length_cons] at he
    rwa [show ordinal + 1 + l.length = ordinal + (l.length + 1) from by omega]

/-- INTERNAL: the loop succeeds for the successor of a record as for the record. -/
theorem historyLoop_mono {d d' : DirectRecord} (hcore : core d' = core d)
    (hclaimed : d.executionClaimed = true → d'.executionClaimed = true)
    (ordinal : ℕ) (previous : Option DirectStatus) (l : List HistoryEvent)
    (last : Option DirectStatus)
    (hreceipt : ∀ e ∈ l, e.writeReceipt.all
      (fun receipt => receiptExtends receipt d'.writeReceipt) = true)
    (h : d.historyLoop ordinal previous l = some last) :
    d'.historyLoop ordinal previous l = some last := by
  have hcreated : d'.createdAtUnixSeconds = d.createdAtUnixSeconds := by
    have hc : (core d').createdAtUnixSeconds = (core d).createdAtUnixSeconds := by rw [hcore]
    exact hc
  have hclaim : ∀ e : HistoryEvent, e.claimConsistent d.executionClaimed = true →
      e.claimConsistent d'.executionClaimed = true := by
    intro e he
    cases hc : d.executionClaimed with
    | true => simp [HistoryEvent.claimConsistent, hclaimed hc]
    | false =>
      rw [hc] at he
      unfold HistoryEvent.claimConsistent at he ⊢
      simp only [Bool.false_or, Bool.or_eq_true] at he ⊢
      rcases he with (he | he) | he
      · exact Or.inl (Or.inl (Or.inr he))
      · exact Or.inl (Or.inr he)
      · exact Or.inr he
  induction l generalizing ordinal previous with
  | nil => exact h
  | cons a l ih =>
    rw [historyLoop_cons] at h ⊢
    split_ifs at h with ha
    simp only [eventOk, Bool.and_eq_true] at ha
    obtain ⟨⟨⟨hordinal, hmatches⟩, hconsistent⟩, horder⟩ := ha
    have hmatches' := matchesRecord_of_core_eq hcore hmatches (hreceipt a (by simp))
    have hok : eventOk d' ordinal previous a = true := by
      simp only [eventOk, Bool.and_eq_true, hcreated]
      exact ⟨⟨⟨hordinal, hmatches'⟩, hclaim a hconsistent⟩, horder⟩
    rw [if_pos hok]
    exact ih (ordinal + 1) a.status (fun e he => hreceipt e (by simp [he])) h

/-- INTERNAL: every event of a loop that succeeds fits the record. -/
theorem matchesRecord_of_historyLoop (d : DirectRecord) (ordinal : ℕ)
    (previous last : Option DirectStatus) (l : List HistoryEvent)
    (h : d.historyLoop ordinal previous l = some last) (e : HistoryEvent) (he : e ∈ l) :
    e.matchesRecord d = true := by
  induction l generalizing ordinal previous with
  | nil => simp at he
  | cons a l ih =>
    rw [historyLoop_cons] at h
    split_ifs at h with ha
    simp only [eventOk, Bool.and_eq_true] at ha
    rcases List.mem_cons.mp he with rfl | hmem
    · exact ha.1.1.2
    · exact ih (ordinal + 1) a.status h hmem

/-- A valid history in one piece. -/
structure HistoryValid (d : DirectRecord) : Prop where
  loop : d.historyLoop 0 none d.audit = some (some d.review.status)
  nonempty : d.audit ≠ []
  length : d.audit.length ≤ 5
  last : d.review.status.isTerminal = true →
    ∃ e, d.audit.getLast? = some e ∧ e.writeReceipt = d.writeReceipt

/-- INTERNAL: the validator's history check, for a record of the current version. -/
theorem validateHistory_iff (d : DirectRecord) (hversion : d.historyVersion = HISTORY_VERSION) :
    d.validateHistory = true ↔ HistoryValid d := by
  unfold DirectRecord.validateHistory
  constructor
  · intro h
    simp only [Bool.and_eq_true, Bool.not_eq_true', decide_eq_true_eq] at h
    obtain ⟨⟨⟨-, hne⟩, hlength⟩, hloop⟩ := h
    split at hloop
    · rename_i previous hprevious
      simp only [Bool.and_eq_true, Bool.or_eq_true, Bool.not_eq_true', decide_eq_true_eq,
        Option.any_eq_true_iff_get] at hloop
      refine ⟨by rw [hprevious, hloop.1], by simpa using hne, hlength, fun hterminal => ?_⟩
      rcases hloop.2 with hnot | ⟨hsome, hreceipt⟩
      · rw [hterminal] at hnot
        simp at hnot
      · exact ⟨_, (Option.some_get hsome).symm, hreceipt⟩
    · simp at hloop
  · intro h
    have hlast : (!d.review.status.isTerminal ||
        d.audit.getLast?.any fun e => decide (e.writeReceipt = d.writeReceipt)) = true := by
      cases hterminal : d.review.status.isTerminal with
      | false => rfl
      | true =>
        obtain ⟨e, he, hreceipt⟩ := h.last hterminal
        simp [he, hreceipt]
    simp [hversion, h.nonempty, h.length, h.loop, hlast]

/-- INTERNAL: **a valid history stays valid when one event is added.** -/
theorem HistoryValid.push {d d' : DirectRecord} {e : HistoryEvent} (h : HistoryValid d)
    (hcore : core d' = core d) (haudit : d'.audit = d.audit ++ [e])
    (hclaimed : d.executionClaimed = true → d'.executionClaimed = true)
    (hreceipts : ∀ e' ∈ d.audit, e'.writeReceipt.all
      (fun receipt => receiptExtends receipt d'.writeReceipt) = true)
    (hordinal : e.ordinal = d.audit.length) (hmatches : e.matchesRecord d' = true)
    (hclaim : e.claimConsistent d'.executionClaimed = true)
    (hfollows : e.follows (some d.review.status) = true)
    (hstatus : e.status = some d'.review.status) (hlength : d.audit.length < 5)
    (hlast : e.writeReceipt = d'.writeReceipt) : HistoryValid d' := by
  have hpos : d.audit.length ≠ 0 := by
    intro hzero
    exact h.nonempty (List.length_eq_zero_iff.mp hzero)
  have hold := historyLoop_mono hcore hclaimed 0 none d.audit _ hreceipts h.loop
  have hok : eventOk d' (0 + d.audit.length) (some d.review.status) e = true := by
    simp [eventOk, hordinal, hmatches, hclaim, hfollows, hpos]
  refine ⟨?_, ?_, ?_, ?_⟩
  · rw [haudit, historyLoop_append d' 0 none _ d.audit e hold hok, hstatus]
  · rw [haudit]
    simp
  · rw [haudit, List.length_append, List.length_singleton]
    omega
  · intro _
    exact ⟨e, by rw [haudit, List.getLast?_concat], hlast⟩

/-- INTERNAL: **a valid history stays valid when its record changes without an event.** -/
theorem HistoryValid.keep {d d' : DirectRecord} (h : HistoryValid d) (hcore : core d' = core d)
    (haudit : d'.audit = d.audit) (hstatus : d'.review.status = d.review.status)
    (hclaimed : d.executionClaimed = true → d'.executionClaimed = true)
    (hreceipts : ∀ e ∈ d.audit, e.writeReceipt.all
      (fun receipt => receiptExtends receipt d'.writeReceipt) = true)
    (hterminal : d.review.status.isTerminal = false) : HistoryValid d' := by
  have hold := historyLoop_mono hcore hclaimed 0 none d.audit _ hreceipts h.loop
  refine ⟨?_, ?_, ?_, ?_⟩
  · rw [haudit, hstatus]
    exact hold
  · rw [haudit]
    exact h.nonempty
  · rw [haudit]
    exact h.length
  · intro hterminal'
    rw [hstatus, hterminal] at hterminal'
    simp at hterminal'

end VaultAccess.Analysis
