import VaultAccess.Analysis.History
import VaultAccess.Analysis.Review

/-!
# Records stay valid

The invariant of a stored record: what the validator checks, and what it does not
check but every operation keeps (the phase of the record, receipts only in
executions, an audit no longer than its status allows). Every legitimate change
keeps it, a new record has it, and it implies the validator's verdict.
-/

set_option autoImplicit false

namespace VaultAccess.Analysis

open VaultAccess.Library VaultAccess.Library.Text VaultAccess.Model

/-- The last event of a record is a reconciliation. -/
def lastReconciled (d : DirectRecord) : Bool := d.audit.getLast?.any fun e => e.outcome = .reconciled

/-- How many events a record may have: one for each status passed, and one reconciliation. -/
def auditBound (d : DirectRecord) : ℕ :=
  match d.review.status with
  | .pending => 1
  | .approved => 2
  | .running => 3
  | .denied | .expired | .completed _ | .failed _ => if lastReconciled d then 5 else 4

/-- The invariant of a record stored under `id`. -/
structure RecordInv (E : Externals) (id : String) (d : DirectRecord) : Prop where
  core : CoreValid E id d
  phase : Phase d
  history : HistoryValid d
  binding : ∀ b, d.approval = some b → b = d.approvalBinding
  approved : d.review.status = .approved ∨ d.review.status = .running → d.approval.isSome = true
  receipt : ∀ receipt, d.writeReceipt = some receipt → d.receiptValid receipt = true
  executing : d.writeReceipt.isSome = true → d.review.status.isExecuted = true
  clean : d.review.status.isTerminal = false → ∀ e ∈ d.audit, e.writeReceipt = none
  length : d.audit.length ≤ auditBound d
  exit : d.review.status.exitInRange = true

/-! ## Transitions -/

/-- INTERNAL: only statuses that are not terminal have successors. -/
theorem isTerminal_of_statusFollows (before after : DirectStatus)
    (h : statusFollows before after = true) : before.isTerminal = false := by
  cases before with
  | pending => rfl
  | approved => rfl
  | running => rfl
  | denied => simp [statusFollows] at h
  | expired => simp [statusFollows] at h
  | completed exitCode => simp [statusFollows] at h
  | failed reason => simp [statusFollows] at h

/-- INTERNAL: before a terminal status no event carries a receipt, so every receipt fits. -/
theorem RecordInv.receipts_extend {E : Externals} {id : String} {d : DirectRecord}
    (h : RecordInv E id d) (hterminal : d.review.status.isTerminal = false)
    (latest : Option WriteReceipt) : ∀ e ∈ d.audit, e.writeReceipt.all
      (fun receipt => receiptExtends receipt latest) = true := by
  intro e he
  rw [h.clean hterminal e he]
  rfl

/-- INTERNAL: before a terminal status there is room for events. -/
theorem RecordInv.length_lt {E : Externals} {id : String} {d : DirectRecord}
    (h : RecordInv E id d) (hterminal : d.review.status.isTerminal = false) :
    d.audit.length < 4 := by
  have hlength := h.length
  unfold auditBound at hlength
  cases hstatus : d.review.status with
  | pending => rw [hstatus] at hlength; simp only at hlength; omega
  | approved => rw [hstatus] at hlength; simp only at hlength; omega
  | running => rw [hstatus] at hlength; simp only at hlength; omega
  | denied => simp [hstatus, DirectStatus.isTerminal] at hterminal
  | expired => simp [hstatus, DirectStatus.isTerminal] at hterminal
  | completed exitCode => simp [hstatus, DirectStatus.isTerminal] at hterminal
  | failed reason => simp [hstatus, DirectStatus.isTerminal] at hterminal

/-- INTERNAL: **the history stays valid when a snapshot of the next status is added**, with any
approval method the event may carry. -/
theorem RecordInv.history_push {E : Externals} {id : String} {d d' : DirectRecord}
    (h : RecordInv E id d) (next : DirectStatus) (result : HistoryOutcome) (now : ℕ)
    (method : Option ApprovalMethod) (hcore : Analysis.core d' = Analysis.core d)
    (haudit : d'.audit = d.audit ++ [{ HistoryEvent.snapshot d d.audit.length now result
      (some next) with approval := method }])
    (hstatus : d'.review.status = next) (hclaimed : d'.executionClaimed = d.executionClaimed)
    (hreceipt : d'.writeReceipt = d.writeReceipt)
    (hvalid : { HistoryEvent.snapshot d d.audit.length now result (some next) with
      approval := method : HistoryEvent }.valid = true)
    (hfollows : statusFollows d.review.status next = true)
    (hclaim : next.isExecuted = true → d.executionClaimed = true) : HistoryValid d' := by
  have hterminal := isTerminal_of_statusFollows _ _ hfollows
  have hmatches := snapshot_matchesRecord d d.audit.length now result (some next) method hvalid
  refine h.history.push hcore haudit (fun hc => hclaimed.trans hc)
    (h.receipts_extend hterminal _) rfl ?_ ?_ ?_ ?_ (by have := h.length_lt hterminal; omega) ?_
  · refine matchesRecord_of_core_eq hcore hmatches ?_
    unfold HistoryEvent.matchesRecord at hmatches
    simp only [Bool.and_eq_true] at hmatches
    rw [hreceipt]
    exact hmatches.1.1
  · rw [hclaimed]
    cases hexecuted : next.isExecuted with
    | true => simp [HistoryEvent.claimConsistent, hclaim hexecuted]
    | false => simp [HistoryEvent.claimConsistent, HistoryEvent.snapshot, hexecuted]
  · simp [HistoryEvent.follows, HistoryEvent.snapshot, hfollows]
  · rw [hstatus]
    rfl
  · rw [hreceipt]
    rfl

/-- INTERNAL: the history after a transition. -/
theorem RecordInv.history_advance {E : Externals} {id : String} {d : DirectRecord}
    (h : RecordInv E id d) (next : DirectStatus) (decision : DecisionOutcome) (now : ℕ)
    (hfollows : statusFollows d.review.status next = true) (hexit : next.exitInRange = true)
    (hclaim : next.isExecuted = true → d.executionClaimed = true) :
    HistoryValid (d.advance next decision now) :=
  h.history_push next (outcome next decision) now none rfl rfl rfl rfl rfl
    (snapshot_valid h.core _ _ _ _ (outcome_consistent next decision hexit)) hfollows hclaim

/-- INTERNAL: the audit after a transition to a terminal status is within its bound. -/
theorem RecordInv.length_terminal {E : Externals} {id : String} {d : DirectRecord}
    (h : RecordInv E id d) (hterminal : d.review.status.isTerminal = false)
    (next : DirectStatus) (hnext : next.isTerminal = true) (decision : DecisionOutcome) (now : ℕ) :
    (d.advance next decision now).audit.length ≤ auditBound (d.advance next decision now) := by
  have hlength := h.length_lt hterminal
  have haudit : (d.advance next decision now).audit.length = d.audit.length + 1 := by
    simp [DirectRecord.advance]
  have hbound : 4 ≤ auditBound (d.advance next decision now) := by
    have hstatus : (d.advance next decision now).review.status = next := rfl
    unfold auditBound
    rw [hstatus]
    cases next with
    | pending => simp [DirectStatus.isTerminal] at hnext
    | approved => simp [DirectStatus.isTerminal] at hnext
    | running => simp [DirectStatus.isTerminal] at hnext
    | denied => simp only; split_ifs <;> omega
    | expired => simp only; split_ifs <;> omega
    | completed exitCode => simp only; split_ifs <;> omega
    | failed reason => simp only; split_ifs <;> omega
  omega

/-- INTERNAL: a record that reaches a terminal status keeps the invariant. -/
theorem RecordInv.terminate {E : Externals} {id : String} {d : DirectRecord}
    (h : RecordInv E id d) (next : DirectStatus) (decision : DecisionOutcome) (now : ℕ)
    (hphase : Phase (d.advance next decision now))
    (hfollows : statusFollows d.review.status next = true) (hexit : next.exitInRange = true)
    (hnext : next.isTerminal = true) (hclaim : next.isExecuted = true → d.executionClaimed = true)
    (hreceipt : d.writeReceipt.isSome = true → next.isExecuted = true) :
    RecordInv E id (d.advance next decision now) where
  core := h.core.of_core_eq rfl
  phase := hphase
  history := h.history_advance next decision now hfollows hexit hclaim
  binding := by
    intro b hb
    rw [hphase.terminal hnext] at hb
    simp at hb
  approved := by
    have hstatus : (d.advance next decision now).review.status = next := rfl
    rw [hstatus]
    rintro (rfl | rfl) <;> simp [DirectStatus.isTerminal] at hnext
  receipt := h.receipt
  executing := hreceipt
  clean := by
    intro hterminal
    have hstatus : (d.advance next decision now).review.status = next := rfl
    rw [hstatus, hnext] at hterminal
    simp at hterminal
  length := h.length_terminal (isTerminal_of_statusFollows _ _ hfollows) next hnext decision now
  exit := hexit

/-- INTERNAL: an unclaimed record has no receipt. -/
theorem RecordInv.receipt_none {E : Externals} {id : String} {d : DirectRecord}
    (h : RecordInv E id d) (hstatus : d.review.status = .pending ∨ d.review.status = .approved) :
    d.writeReceipt = none := by
  cases hreceipt : d.writeReceipt with
  | none => rfl
  | some receipt =>
    have hexecuted := h.executing (by rw [hreceipt]; rfl)
    rcases hstatus with hstatus | hstatus <;> simp [hstatus, DirectStatus.isExecuted] at hexecuted

/-! ## Each change -/

/-- INTERNAL: a decision keeps the invariant. -/
theorem RecordInv.decision {E : Externals} {id : String} {d : DirectRecord} (h : RecordInv E id d)
    (approve : Bool) (method : Option ApprovalMethod) (now : ℕ)
    (hstatus : d.review.status = .pending) (hmethod : method.isSome = true → approve = true)
    (hkey : ∀ keyId, method = some (.biometric keyId) → validSha256 keyId = true)
    (hcore : Analysis.core (decided d approve method now) = Analysis.core d)
    (hphase : Phase (decided d approve method now)) : RecordInv E id (decided d approve method now) := by
  cases approve with
  | false =>
    -- a denial carries no method
    have hnone : method = none := by
      cases method with
      | none => rfl
      | some m => simp at hmethod
    subst hnone
    exact h.terminate .denied .denied now hphase (by rw [hstatus]; rfl) rfl rfl
      (by simp [DirectStatus.isExecuted]) (by simp [h.receipt_none (Or.inl hstatus)])
  | true =>
    have haudit := decided_audit d true method now
    have hreceipt : (decided d true method now).writeReceipt = none := by
      rw [decided_receipt, h.receipt_none (Or.inl hstatus)]
    have hstatus' : (decided d true method now).review.status = .approved := decided_status d true method now
    have hbinding := approvalBinding_of_core_eq hcore
    refine ⟨h.core.of_core_eq hcore, hphase, ?_, ?_, ?_, ?_, ?_, ?_, ?_, ?_⟩
    · exact h.history_push .approved .approved now method hcore haudit hstatus'
        (decided_claimed d true method now) (decided_receipt d true method now)
        (snapshot_valid_method h.core _ _ method hkey) (by rw [hstatus]; rfl)
        (by simp [DirectStatus.isExecuted])
    · intro b hb
      rw [decided_approval] at hb
      rw [hbinding]
      exact (by simpa using hb : d.approvalBinding = b).symm
    · intro _
      rw [decided_approval]
      rfl
    · intro receipt hr
      rw [hreceipt] at hr
      simp at hr
    · rw [hreceipt]
      simp
    · intro _ e he
      rw [haudit] at he
      rcases List.mem_append.mp he with he | he
      · exact h.clean (by rw [hstatus]; rfl) e he
      · have heq : e = decisionEvent d true method now := by simpa using he
        rw [heq]
        exact h.receipt_none (Or.inl hstatus)
    · have hlength := h.length
      unfold auditBound at hlength ⊢
      rw [hstatus] at hlength
      rw [hstatus', haudit, List.length_append, List.length_singleton]
      simp only at hlength ⊢
      omega
    · rw [hstatus']
      rfl

/-- INTERNAL: a claim keeps the invariant. -/
theorem RecordInv.claim {E : Externals} {id : String} {d : DirectRecord} (h : RecordInv E id d)
    (hstatus : d.review.status = .approved) (hphase : Phase { d with executionClaimed := true }) :
    RecordInv E id { d with executionClaimed := true } where
  core := h.core.of_core_eq rfl
  phase := hphase
  history := h.history.keep rfl rfl rfl (fun _ => rfl)
    (h.receipts_extend (by rw [hstatus]; rfl) _) (by rw [hstatus]; rfl)
  binding := h.binding
  approved := h.approved
  receipt := by
    intro receipt hr
    have hnone := h.receipt_none (Or.inr hstatus)
    rw [show ({ d with executionClaimed := true } : DirectRecord).writeReceipt = d.writeReceipt from rfl,
      hnone] at hr
    simp at hr
  executing := h.executing
  clean := h.clean
  length := h.length
  exit := h.exit

/-- INTERNAL: a start keeps the invariant. -/
theorem RecordInv.start {E : Externals} {id : String} {d : DirectRecord} (h : RecordInv E id d)
    (decision : DecisionOutcome) (now : ℕ) (hclaimed : d.executionClaimed = true)
    (hstatus : d.review.status = .approved) (hphase : Phase (d.advance .running decision now)) :
    RecordInv E id (d.advance .running decision now) where
  core := h.core.of_core_eq rfl
  phase := hphase
  history := h.history_advance .running decision now (by rw [hstatus]; rfl) rfl (fun _ => hclaimed)
  binding := h.binding
  approved := fun _ => h.approved (Or.inl hstatus)
  receipt := h.receipt
  executing := fun _ => rfl
  clean := by
    intro _ e he
    have haudit : (d.advance .running decision now).audit = d.audit ++
        [HistoryEvent.snapshot d d.audit.length now (outcome .running decision) (some .running)] := rfl
    rw [haudit] at he
    rcases List.mem_append.mp he with he | he
    · exact h.clean (by rw [hstatus]; rfl) e he
    · rw [List.mem_singleton.mp he]
      exact h.receipt_none (Or.inr hstatus)
  length := by
    have hlength := h.length
    have hnext : (d.advance .running decision now).review.status = .running := rfl
    unfold auditBound at hlength ⊢
    rw [hstatus] at hlength
    rw [hnext]
    simp only [DirectRecord.advance, List.length_append, List.length_singleton] at hlength ⊢
    omega
  exit := rfl

/-- INTERNAL: a new receipt during an execution keeps the invariant. -/
theorem RecordInv.withReceipt {E : Externals} {id : String} {d : DirectRecord} (h : RecordInv E id d)
    (receipt : WriteReceipt) (hexecuted : d.review.status.isExecuted = true)
    (hterminal : d.review.status.isTerminal = false) (hvalid : d.receiptValid receipt = true) :
    RecordInv E id { d with writeReceipt := some receipt } where
  core := h.core.of_core_eq rfl
  phase := ⟨h.phase.claimed, h.phase.executed, h.phase.terminal⟩
  history := h.history.keep rfl rfl rfl (fun hc => hc) (h.receipts_extend hterminal _) hterminal
  binding := h.binding
  approved := h.approved
  receipt := by
    intro r hr
    have heq : receipt = r := by simpa using hr
    rw [← heq]
    exact hvalid
  executing := fun _ => hexecuted
  clean := h.clean
  length := h.length
  exit := h.exit

/-- INTERNAL: a reconciliation keeps the invariant. -/
theorem RecordInv.reconcile {E : Externals} {id : String} {d : DirectRecord} (h : RecordInv E id d)
    (receipt : WriteReceipt) (itemId : String) (now : ℕ)
    (hterminal : d.review.status.isTerminal = true) (hreceipt : d.writeReceipt = some receipt)
    (hitem : ∀ old, receipt.itemId = some old → old = itemId)
    (hlast : ∀ e, d.audit.getLast? = some e → e.outcome ≠ .reconciled)
    (hvalid : validId itemId = true) : RecordInv E id (reconciled d receipt itemId now) := by
  have hlength : d.audit.length ≤ 4 := by
    have hnot : lastReconciled d = false := by
      unfold lastReconciled
      cases hl : d.audit.getLast? with
      | none => rfl
      | some e => simpa using hlast e hl
    have hlength := h.length
    unfold auditBound at hlength
    rw [hnot] at hlength
    split at hlength
    · omega
    · omega
    · omega
    all_goals simpa using hlength
  have hold := h.receipt receipt hreceipt
  have hextends : ∀ e ∈ d.audit, e.writeReceipt.all
      (fun r => receiptExtends r (some (receipt.reconciled itemId))) = true := by
    intro e he
    have hmatches := matchesRecord_of_historyLoop d 0 none _ d.audit h.history.loop e he
    unfold HistoryEvent.matchesRecord at hmatches
    simp only [Bool.and_eq_true] at hmatches
    have hr := hmatches.1.1
    rw [hreceipt] at hr
    cases hreceiptEvent : e.writeReceipt with
    | none => rfl
    | some r =>
      rw [hreceiptEvent] at hr
      simp only [Option.all_some, receiptExtends, Bool.and_eq_true, decide_eq_true_eq] at hr ⊢
      refine ⟨hr.1, ?_⟩
      cases hid : r.itemId with
      | none => rfl
      | some old =>
        have hsame : receipt.itemId = some old := by simpa [hid] using hr.2
        simp [WriteReceipt.reconciled, hitem old hsame]
  let d' : DirectRecord := { d with writeReceipt := some (receipt.reconciled itemId) }
  have hcore : CoreValid E id d' := h.core.of_core_eq rfl
  have hevent : (HistoryEvent.snapshot d' d'.audit.length now .reconciled
      (some d'.review.status)).valid = true :=
    snapshot_valid hcore d'.audit.length now .reconciled (some d'.review.status) hterminal
  have hmatches := snapshot_matchesRecord d' d'.audit.length now .reconciled
    (some d'.review.status) none hevent
  refine ⟨h.core.of_core_eq rfl, ⟨h.phase.claimed, h.phase.executed, h.phase.terminal⟩, ?_,
    h.binding, h.approved, ?_, ?_, ?_, ?_, h.exit⟩
  · refine h.history.push rfl rfl (fun hc => hc) hextends rfl ?_ ?_ ?_ rfl (by omega) rfl
    · exact matchesRecord_of_core_eq rfl hmatches (by simp [HistoryEvent.snapshot,
        reconciled, receiptExtends_self])
    · have hclaimed : d.executionClaimed = true := by
        simp only [DirectRecord.receiptValid, Bool.and_eq_true] at hold
        exact hold.1.1.1.2
      simp [HistoryEvent.claimConsistent, reconciled, hclaimed]
    · simp [HistoryEvent.follows, HistoryEvent.snapshot, hterminal]
  · intro r hr
    have heq : receipt.reconciled itemId = r := by simpa [reconciled] using hr
    rw [← heq]
    simp only [DirectRecord.receiptValid, Bool.and_eq_true] at hold ⊢
    obtain ⟨⟨⟨⟨hcreate, hclaimed⟩, hattempt⟩, -⟩, -⟩ := hold
    refine ⟨⟨⟨⟨hcreate, hclaimed⟩, hattempt⟩, ?_⟩, ?_⟩
    · simpa [WriteReceipt.reconciled] using hvalid
    · simp [WriteReceipt.reconciled]
  · intro _
    exact h.executing (by rw [hreceipt]; rfl)
  · intro hnot
    have hsame : (reconciled d receipt itemId now).review.status = d.review.status := rfl
    rw [hsame, hterminal] at hnot
    simp at hnot
  · have hrec : lastReconciled (reconciled d receipt itemId now) = true := by
      simp [lastReconciled, reconciled, HistoryEvent.snapshot]
    have hsame : (reconciled d receipt itemId now).review.status = d.review.status := rfl
    have hbound : auditBound (reconciled d receipt itemId now) = 5 := by
      unfold auditBound
      rw [hsame, hrec]
      cases hs : d.review.status with
      | pending => simp [hs, DirectStatus.isTerminal] at hterminal
      | approved => simp [hs, DirectStatus.isTerminal] at hterminal
      | running => simp [hs, DirectStatus.isTerminal] at hterminal
      | denied => rfl
      | expired => rfl
      | completed exitCode => rfl
      | failed reason => rfl
    rw [hbound]
    simp only [reconciled, List.length_append, List.length_singleton]
    omega

/-- **Every legitimate change of a record keeps its invariant.** -/
theorem RecordInv.step {E : Externals} {id : String} {d d' : DirectRecord} (h : RecordInv E id d)
    (hstep : DirectStep True d d') : RecordInv E id d' := by
  have hcore := hstep.core_eq
  have hphase := hstep.phase h.phase
  cases hstep with
  | decide approve method now hstatus hmethod hkey =>
    exact h.decision approve method now hstatus hmethod (hkey trivial) hcore hphase
  | expire decision now hclaimed hstatus =>
    refine h.terminate .expired decision now hphase ?_ rfl rfl ?_ ?_
    · rcases hstatus with hstatus | hstatus <;> rw [hstatus] <;> rfl
    · simp [DirectStatus.isExecuted]
    · simp [h.receipt_none hstatus]
  | claim hstatus _ => exact h.claim hstatus hphase
  | start decision now hclaimed hstatus => exact h.start decision now hclaimed hstatus hphase
  | complete exitCode decision now hclaimed hstatus hexit =>
    exact h.terminate (.completed exitCode) decision now hphase (by rw [hstatus]; rfl)
      (hexit trivial) rfl (fun _ => hclaimed) (fun _ => rfl)
  | fail reason decision now hclaimed hstatus =>
    refine h.terminate (.failed reason) decision now hphase ?_ rfl rfl (fun _ => hclaimed)
      (fun _ => rfl)
    rcases hstatus with hstatus | hstatus <;> rw [hstatus] <;> rfl
  | begin hclaimed hstatus hreceipt hcreate =>
    refine h.withReceipt _ (by rw [hstatus]; rfl) (by rw [hstatus]; rfl) ?_
    simp [DirectRecord.receiptValid, hcreate, hclaimed]
  | record receipt item status hreceipt hitem hvalid =>
    obtain ⟨hids, hsome, hterminal⟩ := hvalid trivial
    have hold := h.receipt receipt hreceipt
    refine h.withReceipt _ (h.executing (by rw [hreceipt]; rfl)) hterminal ?_
    simp only [DirectRecord.receiptValid, Bool.and_eq_true] at hold ⊢
    obtain ⟨⟨⟨⟨hcreate, hclaimed⟩, hattempt⟩, -⟩, -⟩ := hold
    refine ⟨⟨⟨⟨hcreate, hclaimed⟩, hattempt⟩, ?_⟩, ?_⟩
    · cases item with
      | none => rfl
      | some i => exact hids i rfl
    · by_cases hs : status = .verified ∨ status = .createdUnverified
      · simp [hsome hs]
      · rw [not_or] at hs
        simp [hs.1, hs.2]
  | reconcile receipt itemId now hterminal hreceipt hitem hlast hvalid =>
    exact h.reconcile receipt itemId now hterminal hreceipt hitem hlast (hvalid trivial)

/-! ## The validator's verdict -/

/-- What the validator checks of a record stored under `id` in an epoch, in one piece. -/
structure RecordChecked (E : Externals) (id : String) (epoch : ℕ) (d : DirectRecord) : Prop where
  core : CoreValid E id d
  history : HistoryValid d
  binding : ∀ b, d.approval = some b → b = d.approvalBinding
  approved : d.review.status = .approved ∨ d.review.status = .running →
    d.approval.isSome = true ∨ d.review.oneTime = LEGACY_ONE_TIME
  receipt : ∀ receipt, d.writeReceipt = some receipt → d.receiptValid receipt = true
  exit : d.review.status.exitInRange = true
  reached : d.lifecycleEpoch ≤ epoch

theorem version_of_validateHistory {d : DirectRecord} (h : d.validateHistory = true) :
    d.historyVersion = HISTORY_VERSION := by
  simp only [DirectRecord.validateHistory, Bool.and_eq_true, decide_eq_true_eq] at h
  exact h.1.1.1

/-- **The validator's verdict on a record.** -/
theorem validate_iff {E : Externals} {id : String} {epoch : ℕ} {d : DirectRecord} :
    d.validate E id epoch = true ↔ RecordChecked E id epoch d := by
  unfold DirectRecord.validate
  constructor
  · intro h
    simp only [Bool.and_eq_true, decide_eq_true_eq] at h
    obtain ⟨⟨⟨⟨⟨⟨⟨⟨⟨⟨⟨⟨⟨hreceipt, hdigest⟩, hreplay⟩, hbinding⟩, happroved⟩, hhistory⟩, hid⟩, hsame⟩,
      huid⟩, hepoch⟩, htimes⟩, howner⟩, hreview⟩, hexit⟩ := h
    have hversion := version_of_validateHistory hhistory
    refine ⟨⟨hdigest, ?_, hsame, hid, huid, htimes, howner, hreview, hversion⟩,
      (validateHistory_iff d hversion).mp hhistory, ?_, ?_, ?_, hexit, hepoch⟩
    · intro marker hmarker
      simpa [hmarker] using hreplay
    · intro b hb
      simpa [hb] using hbinding
    · intro hstatus
      simp only [Bool.or_eq_true, Bool.not_eq_true', decide_eq_true_eq, Bool.or_eq_false_iff,
        decide_eq_false_iff_not] at happroved
      rcases happroved with (hneither | hsome) | hlegacy
      · exact absurd hstatus (not_or.mpr hneither)
      · exact Or.inl hsome
      · exact Or.inr hlegacy
    · intro receipt hr
      simpa [hr] using hreceipt
  · intro h
    have hreceipt : d.writeReceipt.all d.receiptValid = true := by
      cases hr : d.writeReceipt with
      | none => rfl
      | some receipt => exact h.receipt receipt hr
    have hreplay :
        d.replayDigest.all (fun digest => d.agentOwner.isSome && validSha256 digest) = true := by
      cases hr : d.replayDigest with
      | none => rfl
      | some marker => simpa using h.core.replay marker hr
    have hbinding : d.approval.all (fun binding => decide (binding = d.approvalBinding)) = true := by
      cases ha : d.approval with
      | none => rfl
      | some b => simpa using h.binding b ha
    have happroved : (!(decide (d.review.status = .approved) || decide (d.review.status = .running)) ||
        d.approval.isSome || decide (d.review.oneTime = LEGACY_ONE_TIME)) = true := by
      by_cases hs : d.review.status = .approved ∨ d.review.status = .running
      · rcases h.approved hs with hsome | hlegacy
        · simp [hsome]
        · simp [hlegacy]
      · rw [not_or] at hs
        simp [hs.1, hs.2]
    have hhistory : d.validateHistory = true := (validateHistory_iff d h.core.version).mpr h.history
    simp only [hreceipt, hreplay, hbinding, happroved, hhistory, h.core.owner, h.core.review, h.exit,
      h.core.idValid, Bool.and_true, Bool.true_and, Bool.and_eq_true]
    exact ⟨⟨⟨⟨decide_eq_true h.core.digest, decide_eq_true h.core.requestId⟩,
      decide_eq_true h.core.ownerUid⟩, decide_eq_true h.reached⟩, decide_eq_true h.core.times⟩

/-- **The invariant implies the validator's verdict.** -/
theorem RecordInv.validate {E : Externals} {id : String} {d : DirectRecord} (h : RecordInv E id d)
    (epoch : ℕ) (hepoch : d.lifecycleEpoch ≤ epoch) : d.validate E id epoch = true :=
  validate_iff.mpr
    { core := h.core
      history := h.history
      binding := h.binding
      approved := fun hstatus => Or.inl (h.approved hstatus)
      receipt := h.receipt
      exit := h.exit
      reached := hepoch }

/-! ## New records -/

/-- What a new record needs: an owner that matches its review, and a valid review. -/
theorem newRecord_inv (E : Externals) (uid : UInt32) (agentOwner : Option AgentOwner)
    (replayDigest : Option String) (review : DirectReview) (now epoch : ℕ)
    (hreplay : ∀ marker, replayDigest = some marker →
      agentOwner.isSome = true ∧ validSha256 marker = true)
    (hid : validRequestId review.id = true) (huid : uid ≠ u32Max)
    (htimes : now < review.expiresAtUnixSeconds) (hstatus : review.status = .pending)
    (howner : (newRecord E uid agentOwner replayDigest review now epoch).ownerValid = true)
    (hreview : review.valid E = true) :
    RecordInv E review.id (newRecord E uid agentOwner replayDigest review now epoch) := by
  let d := newRecord E uid agentOwner replayDigest review now epoch
  have hcore : CoreValid E review.id d :=
    ⟨rfl, hreplay, rfl, hid, huid, htimes, howner, hreview, rfl⟩
  have hevent : (HistoryEvent.snapshot d 0 now .submitted (some .pending)).valid = true :=
    snapshot_valid hcore _ _ _ _ rfl
  have hmatches : (HistoryEvent.snapshot d 0 now .submitted (some .pending)).matchesRecord d = true :=
    snapshot_matchesRecord d 0 now .submitted (some .pending) none hevent
  have haudit : d.audit = [HistoryEvent.snapshot d 0 now .submitted (some .pending)] := rfl
  have hok : eventOk d 0 none (HistoryEvent.snapshot d 0 now .submitted (some .pending)) = true := by
    simp only [eventOk, hmatches, Bool.and_true, Bool.and_eq_true]
    exact ⟨⟨rfl, by simp [HistoryEvent.claimConsistent, HistoryEvent.snapshot,
      DirectStatus.isExecuted]⟩, by simp [HistoryEvent.isFirst, HistoryEvent.snapshot, d, newRecord,
      DirectRecord.seal]⟩
  have hpending : d.review.status = .pending := hstatus
  refine ⟨hcore, ⟨?_, ?_, ?_⟩, ⟨?_, ?_, ?_, ?_⟩, ?_, ?_, ?_, ?_, ?_, ?_, ?_⟩
  · intro hclaimed
    exact absurd hclaimed (by simp [newRecord, DirectRecord.seal])
  · intro hexecuted
    rw [show (newRecord E uid agentOwner replayDigest review now epoch).review.status = .pending from
      hpending] at hexecuted
    simp [DirectStatus.isExecuted] at hexecuted
  · intro _
    rfl
  · show d.historyLoop 0 none d.audit = some (some d.review.status)
    rw [haudit, historyLoop_cons, if_pos hok, hpending]
    rfl
  · show d.audit ≠ []
    rw [haudit]
    simp
  · show d.audit.length ≤ 5
    rw [haudit]
    simp
  · intro hterminal
    rw [show (newRecord E uid agentOwner replayDigest review now epoch).review.status = .pending from
      hpending] at hterminal
    simp [DirectStatus.isTerminal] at hterminal
  · intro b hb
    exact absurd hb (by simp [newRecord, DirectRecord.seal])
  · rintro (hs | hs)
    · exact absurd (hpending.symm.trans hs) (by decide)
    · exact absurd (hpending.symm.trans hs) (by decide)
  · intro receipt hr
    exact absurd hr (by simp [newRecord, DirectRecord.seal])
  · intro hr
    exact absurd hr (by simp [newRecord, DirectRecord.seal])
  · intro _ e he
    have hmem : e ∈ d.audit := he
    rw [haudit] at hmem
    rw [List.mem_singleton.mp hmem]
    rfl
  · show d.audit.length ≤ auditBound d
    rw [haudit]
    simp [auditBound, hpending]
  · show d.review.status.exitInRange = true
    rw [hpending]
    rfl

end VaultAccess.Analysis
