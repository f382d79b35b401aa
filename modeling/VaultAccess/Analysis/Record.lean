import VaultAccess.Library.Lists
import VaultAccess.Model.Store
import Mathlib.Logic.Relation

/-!
# What one operation does to a record

`DirectStep` lists everything an operation of the provider can do to a direct
record, with the guards it checked. Lifecycle, approval, claim, history and
receipts of a record are then followed from that list and never from the
operations themselves.
-/

set_option autoImplicit false

namespace VaultAccess.Analysis

open VaultAccess.Library VaultAccess.Model

/-! ## The changes of a record -/

/-- The part of a record that no operation changes. -/
def core (d : DirectRecord) : DirectRecord :=
  { d with
    review := { d.review with status := .pending }
    approval := none
    executionClaimed := false
    audit := []
    writeReceipt := none }

/-- The status a decision leads to. -/
def decisionStatus (approve : Bool) : DirectStatus := if approve then .approved else .denied

def decisionOutcome (approve : Bool) : DecisionOutcome := if approve then .approved else .denied

/-- The record after a decision, with the approval method on its last event. -/
def decided (d : DirectRecord) (approve : Bool) (method : Option ApprovalMethod) (now : ℕ) :
    DirectRecord :=
  let d' := d.advance (decisionStatus approve) (decisionOutcome approve) now
  match method with
  | some m => d'.withMethod m
  | none => d'

/-- The record after an owner named the item of its receipt. -/
def reconciled (d : DirectRecord) (receipt : WriteReceipt) (itemId : String) (now : ℕ) :
    DirectRecord :=
  let d' := { d with writeReceipt := some (receipt.reconciled itemId) }
  { d' with audit := d'.audit ++
    [HistoryEvent.snapshot d' d'.audit.length now .reconciled (some d'.review.status)] }

/-- One change of a record and what was checked before it. Under `legit` the arguments are
also those the callers guarantee. -/
inductive DirectStep (legit : Prop) : DirectRecord → DirectRecord → Prop where
  | decide (d : DirectRecord) (approve : Bool) (method : Option ApprovalMethod) (now : ℕ)
      (hstatus : d.review.status = .pending) (hmethod : method.isSome = true → approve = true)
      (hkey : legit → ∀ keyId, method = some (.biometric keyId) → validSha256 keyId = true) :
      DirectStep legit d (decided d approve method now)
  | expire (d : DirectRecord) (decision : DecisionOutcome) (now : ℕ)
      (hclaimed : d.executionClaimed = false)
      (hstatus : d.review.status = .pending ∨ d.review.status = .approved) :
      DirectStep legit d (d.advance .expired decision now)
  | claim (d : DirectRecord) (hstatus : d.review.status = .approved)
      (hclaimed : d.executionClaimed = false) :
      DirectStep legit d { d with executionClaimed := true }
  | start (d : DirectRecord) (decision : DecisionOutcome) (now : ℕ)
      (hclaimed : d.executionClaimed = true) (hstatus : d.review.status = .approved) :
      DirectStep legit d (d.advance .running decision now)
  | complete (d : DirectRecord) (exitCode : Int) (decision : DecisionOutcome) (now : ℕ)
      (hclaimed : d.executionClaimed = true) (hstatus : d.review.status = .running)
      (hexit : legit → (DirectStatus.completed exitCode).exitInRange = true) :
      DirectStep legit d (d.advance (.completed exitCode) decision now)
  | fail (d : DirectRecord) (reason : DirectFailure) (decision : DecisionOutcome) (now : ℕ)
      (hclaimed : d.executionClaimed = true)
      (hstatus : d.review.status = .approved ∨ d.review.status = .running) :
      DirectStep legit d (d.advance (.failed reason) decision now)
  | begin (d : DirectRecord) (hclaimed : d.executionClaimed = true)
      (hstatus : d.review.status = .running) (hreceipt : d.writeReceipt = none)
      (hcreate : d.review.create.isSome = true) :
      DirectStep legit d { d with writeReceipt := some ⟨d.review.id, none, .uncertain⟩ }
  | record (d : DirectRecord) (receipt : WriteReceipt) (item : Option String) (status : WriteStatus)
      (hreceipt : d.writeReceipt = some receipt)
      (hitem : ∀ old, receipt.itemId = some old → item = some old)
      (hvalid : legit → (∀ id, item = some id → validId id = true) ∧
        (status = .verified ∨ status = .createdUnverified → item.isSome = true) ∧
        d.review.status.isTerminal = false) :
      DirectStep legit d { d with writeReceipt := some { receipt with itemId := item, status := status } }
  | reconcile (d : DirectRecord) (receipt : WriteReceipt) (itemId : String) (now : ℕ)
      (hterminal : d.review.status.isTerminal = true) (hreceipt : d.writeReceipt = some receipt)
      (hitem : ∀ old, receipt.itemId = some old → old = itemId)
      (hlast : ∀ e, d.audit.getLast? = some e → e.outcome ≠ .reconciled)
      (hvalid : legit → validId itemId = true) :
      DirectStep legit d (reconciled d receipt itemId now)

/-! ## The lifecycle of a record -/

/-- The moves of a direct status. -/
inductive StatusMove : DirectStatus → DirectStatus → Prop where
  | stay (s : DirectStatus) : StatusMove s s
  | approve : StatusMove .pending .approved
  | deny : StatusMove .pending .denied
  | expirePending : StatusMove .pending .expired
  | start : StatusMove .approved .running
  | expireApproved : StatusMove .approved .expired
  | failApproved (reason : DirectFailure) : StatusMove .approved (.failed reason)
  | complete (exitCode : Int) : StatusMove .running (.completed exitCode)
  | failRunning (reason : DirectFailure) : StatusMove .running (.failed reason)

/-- INTERNAL: setting the method changes only the last event. -/
theorem setMethod_append (method : ApprovalMethod) (l : List HistoryEvent) (e : HistoryEvent) :
    setMethod method (l ++ [e]) = l ++ [{ e with approval := some method }] := by
  induction l with
  | nil => rfl
  | cons a l ih =>
    cases l with
    | nil => rfl
    | cons b l =>
      rw [List.cons_append, List.cons_append, List.cons_append, setMethod]
      · rw [← List.cons_append, ih, List.cons_append]
      · simp

/-- INTERNAL: the event a decision records. -/
def decisionEvent (d : DirectRecord) (approve : Bool) (method : Option ApprovalMethod) (now : ℕ) :
    HistoryEvent :=
  { HistoryEvent.snapshot d d.audit.length now
      (outcome (decisionStatus approve) (decisionOutcome approve)) (some (decisionStatus approve)) with
    approval := method }

/-- INTERNAL: the audit after a decision. -/
theorem decided_audit (d : DirectRecord) (approve : Bool) (method : Option ApprovalMethod) (now : ℕ) :
    (decided d approve method now).audit = d.audit ++ [decisionEvent d approve method now] := by
  cases method with
  | none => rfl
  | some m =>
    show setMethod m (d.audit ++ [_]) = _
    rw [setMethod_append]
    rfl

theorem decided_status (d : DirectRecord) (approve : Bool) (method : Option ApprovalMethod)
    (now : ℕ) : (decided d approve method now).review.status = decisionStatus approve := by
  cases method <;> rfl

theorem decided_claimed (d : DirectRecord) (approve : Bool) (method : Option ApprovalMethod)
    (now : ℕ) : (decided d approve method now).executionClaimed = d.executionClaimed := by
  cases method <;> rfl

theorem decided_receipt (d : DirectRecord) (approve : Bool) (method : Option ApprovalMethod)
    (now : ℕ) : (decided d approve method now).writeReceipt = d.writeReceipt := by
  cases method <;> rfl

theorem decided_approval (d : DirectRecord) (approve : Bool) (method : Option ApprovalMethod)
    (now : ℕ) : (decided d approve method now).approval =
      if approve then some d.approvalBinding else none := by
  cases method <;> cases approve <;> rfl

/-- **No change touches the core of a record.** -/
theorem DirectStep.core_eq {legit : Prop} {d d' : DirectRecord}
    (h : DirectStep legit d d') : core d' = core d := by
  cases h with
  | decide approve method now _ _ _ => cases method <;> rfl
  | expire decision now _ _ => rfl
  | claim _ _ => rfl
  | start decision now _ _ => rfl
  | complete exitCode decision now _ _ _ => rfl
  | fail reason decision now _ _ => rfl
  | begin _ _ _ _ => rfl
  | record receipt item status _ _ _ => rfl
  | reconcile receipt itemId now _ _ _ _ _ => rfl

/-- **The status moves only along the lifecycle.** -/
theorem DirectStep.status_move {legit : Prop} {d d' : DirectRecord}
    (h : DirectStep legit d d') : StatusMove d.review.status d'.review.status := by
  cases h with
  | decide approve method now hstatus _ _ =>
    rw [decided_status, hstatus]
    cases approve
    · exact .deny
    · exact .approve
  | expire decision now _ hstatus =>
    rcases hstatus with hstatus | hstatus
    · rw [hstatus]
      exact .expirePending
    · rw [hstatus]
      exact .expireApproved
  | claim _ _ => exact .stay _
  | start decision now _ hstatus =>
    rw [hstatus]
    exact .start
  | complete exitCode decision now _ hstatus _ =>
    rw [hstatus]
    exact .complete exitCode
  | fail reason decision now _ hstatus =>
    rcases hstatus with hstatus | hstatus
    · rw [hstatus]
      exact .failApproved reason
    · rw [hstatus]
      exact .failRunning reason
  | begin _ _ _ _ => exact .stay _
  | record receipt item status _ _ _ => exact .stay _
  | reconcile receipt itemId now _ _ _ _ _ => exact .stay _

/-- **The audit only grows at its end.** -/
theorem DirectStep.audit_prefix {legit : Prop} {d d' : DirectRecord}
    (h : DirectStep legit d d') : d.audit <+: d'.audit := by
  cases h with
  | decide approve method now _ _ _ =>
    rw [decided_audit]
    exact List.prefix_append _ _
  | expire decision now _ _ => exact List.prefix_append _ _
  | claim _ _ => exact List.prefix_refl _
  | start decision now _ _ => exact List.prefix_append _ _
  | complete exitCode decision now _ _ _ => exact List.prefix_append _ _
  | fail reason decision now _ _ => exact List.prefix_append _ _
  | begin _ _ _ _ => exact List.prefix_refl _
  | record receipt item status _ _ _ => exact List.prefix_refl _
  | reconcile receipt itemId now _ _ _ _ _ => exact List.prefix_append _ _

/-- INTERNAL: a claim is never withdrawn. -/
theorem DirectStep.claimed_mono {legit : Prop} {d d' : DirectRecord}
    (h : DirectStep legit d d') (hclaimed : d.executionClaimed = true) :
    d'.executionClaimed = true := by
  cases h with
  | decide approve method now _ _ _ => rw [decided_claimed, hclaimed]
  | expire decision now _ _ => exact hclaimed
  | claim _ _ => rfl
  | start decision now _ _ => exact hclaimed
  | complete exitCode decision now _ _ _ => exact hclaimed
  | fail reason decision now _ _ => exact hclaimed
  | begin _ _ _ _ => exact hclaimed
  | record receipt item status _ _ _ => exact hclaimed
  | reconcile receipt itemId now _ _ _ _ _ => exact hclaimed

/-- The status no claimed request has. -/
def DirectStatus.unclaimable : DirectStatus → Bool
  | .pending | .denied | .expired => true
  | .approved | .running | .completed _ | .failed _ => false

/-- How claim, approval and status of a record go together. The validator checks none of
these; recovery relies on the first two. -/
structure Phase (d : DirectRecord) : Prop where
  claimed : d.executionClaimed = true → DirectStatus.unclaimable d.review.status = false
  executed : d.review.status.isExecuted = true → d.executionClaimed = true
  terminal : d.review.status.isTerminal = true → d.approval = none

/-- INTERNAL: **every change keeps the phase.** -/
theorem DirectStep.phase {legit : Prop} {d d' : DirectRecord}
    (h : DirectStep legit d d') (hp : Phase d) : Phase d' := by
  cases h with
  | decide approve method now hstatus _ _ =>
    have hunclaimed : d.executionClaimed = false := by
      by_contra hclaimed
      have := hp.claimed (by simpa using hclaimed)
      simp [hstatus, DirectStatus.unclaimable] at this
    refine ⟨?_, ?_, ?_⟩
    · rw [decided_claimed, hunclaimed]
      simp
    · rw [decided_status]
      cases approve <;> simp [decisionStatus, DirectStatus.isExecuted]
    · rw [decided_status, decided_approval]
      cases approve <;> simp [decisionStatus, DirectStatus.isTerminal]
  | expire decision now hclaimed _ =>
    exact ⟨fun h => absurd h (by simp [DirectRecord.advance, hclaimed]),
      fun h => absurd h (by simp [DirectRecord.advance, DirectStatus.isExecuted]), fun _ => rfl⟩
  | claim hstatus _ =>
    exact ⟨fun _ => by simp [hstatus, DirectStatus.unclaimable], fun _ => rfl,
      fun h => absurd h (by simp [hstatus, DirectStatus.isTerminal])⟩
  | start decision now hclaimed _ =>
    exact ⟨fun _ => rfl, fun _ => hclaimed,
      fun h => absurd h (by simp [DirectRecord.advance, DirectStatus.isTerminal])⟩
  | complete exitCode decision now hclaimed _ _ => exact ⟨fun _ => rfl, fun _ => hclaimed, fun _ => rfl⟩
  | fail reason decision now hclaimed _ => exact ⟨fun _ => rfl, fun _ => hclaimed, fun _ => rfl⟩
  | begin _ _ _ _ => exact ⟨hp.claimed, hp.executed, hp.terminal⟩
  | record receipt item status _ _ _ => exact ⟨hp.claimed, hp.executed, hp.terminal⟩
  | reconcile receipt itemId now _ _ _ _ _ => exact ⟨hp.claimed, hp.executed, hp.terminal⟩

/-- INTERNAL: a terminal status stays. -/
theorem StatusMove.eq_of_terminal {s s' : DirectStatus} (h : StatusMove s s')
    (hterminal : s.isTerminal = true) : s' = s := by
  cases h with
  | stay => rfl
  | approve => simp [DirectStatus.isTerminal] at hterminal
  | deny => simp [DirectStatus.isTerminal] at hterminal
  | expirePending => simp [DirectStatus.isTerminal] at hterminal
  | start => simp [DirectStatus.isTerminal] at hterminal
  | expireApproved => simp [DirectStatus.isTerminal] at hterminal
  | failApproved reason => simp [DirectStatus.isTerminal] at hterminal
  | complete exitCode => simp [DirectStatus.isTerminal] at hterminal
  | failRunning reason => simp [DirectStatus.isTerminal] at hterminal

/-! ## Requests and lists of requests -/

/-- One change of a request: none, or a change of its record with the matching status. -/
inductive RequestStep (legit : Prop) (r : RequestRecord) : RequestRecord → Prop where
  | same : RequestStep legit r r
  | change (d d' : DirectRecord) (hd : r.direct = some d) (hstep : DirectStep legit d d') :
      RequestStep legit r ⟨r.id, d'.review.status.lifecycle, some d'⟩

/-- What every stored request satisfies: a direct record with the matching status, in phase. -/
structure RequestPhase (r : RequestRecord) (d : DirectRecord) : Prop where
  direct : r.direct = some d
  status : r.status = d.review.status.lifecycle
  reviewId : d.review.id = r.id
  phase : Phase d

theorem RequestStep.id_eq {legit : Prop} {r r' : RequestRecord}
    (h : RequestStep legit r r') : r'.id = r.id := by
  cases h with
  | same => rfl
  | change d d' hd hstep => rfl

/-- INTERNAL: a change of a request is a change of its record, or none. -/
theorem RequestStep.direct_step {legit : Prop} {r r' : RequestRecord}
    {d : DirectRecord} (h : RequestStep legit r r') (hd : r.direct = some d) :
    ∃ d', r'.direct = some d' ∧ (d' = d ∨ DirectStep legit d d') := by
  cases h with
  | same => exact ⟨d, hd, Or.inl rfl⟩
  | change d₀ d' hd₀ hstep =>
    have heq : d₀ = d := by rwa [hd₀, Option.some.injEq] at hd
    subst heq
    exact ⟨d', rfl, Or.inr hstep⟩

/-- INTERNAL: a change of a request keeps its phase. -/
theorem RequestStep.requestPhase {legit : Prop} {r r' : RequestRecord}
    (h : RequestStep legit r r') (hp : ∃ d, RequestPhase r d) :
    ∃ d, RequestPhase r' d := by
  cases h with
  | same => exact hp
  | change d d' hd hstep =>
    obtain ⟨d₀, hdirect, -, hid, hphase⟩ := hp
    have heq : d₀ = d := by rwa [hdirect, Option.some.injEq] at hd
    subst heq
    have hreview : d'.review.id = d₀.review.id := congrArg (·.review.id) hstep.core_eq
    exact ⟨d', rfl, rfl, hreview.trans hid, hstep.phase hphase⟩

/-- INTERNAL: overwriting the request that was found. -/
theorem forall₂_setFirst (p : RequestRecord → Bool) (R : RequestRecord → RequestRecord → Prop)
    (hrefl : ∀ r, R r r) (l : List RequestRecord) (r r' : RequestRecord)
    (hfind : l.find? p = some r) (hstep : R r r') : List.Forall₂ R l (setFirst p r' l) := by
  induction l with
  | nil => simp at hfind
  | cons a l ih =>
    unfold setFirst
    rw [List.find?_cons] at hfind
    split_ifs with hp
    · rw [hp] at hfind
      simp only [Option.some.injEq] at hfind
      subst hfind
      exact .cons hstep (List.forall₂_same.mpr fun x _ => hrefl x)
    · rw [Bool.not_eq_true] at hp
      rw [hp] at hfind
      exact .cons (hrefl a) (ih hfind)

/-- INTERNAL: an update of every request is an update of each. -/
theorem forall₂_updateRequests (f : ℕ → RequestRecord → Except ProviderDiagnostic RequestRecord)
    (index : ℕ) (l l' : List RequestRecord) (h : updateRequests f index l = .ok l') :
    List.Forall₂ (fun r r' => ∃ i, f i r = .ok r') l l' := by
  induction l generalizing index l' with
  | nil =>
    simp only [updateRequests, Except.ok.injEq] at h
    rw [← h]
    exact .nil
  | cons r l ih =>
    simp only [updateRequests, bind, Except.bind, pure, Except.pure] at h
    split at h
    · simp at h
    · rename_i r' hr
      split at h
      · simp at h
      · rename_i rest hrest
        simp only [Except.ok.injEq] at h
        rw [← h]
        exact .cons ⟨index, hr⟩ (ih (index + 1) rest hrest)

/-- INTERNAL: an update of every request succeeds if each does. -/
theorem updateRequests_ok (f : ℕ → RequestRecord → Except ProviderDiagnostic RequestRecord) (index : ℕ)
    (l : List RequestRecord) (h : ∀ r ∈ l, ∀ i, ∃ r', f i r = .ok r') :
    ∃ l', updateRequests f index l = .ok l' := by
  induction l generalizing index with
  | nil => exact ⟨[], rfl⟩
  | cons r l ih =>
    obtain ⟨r', hr'⟩ := h r List.mem_cons_self index
    obtain ⟨l', hl'⟩ := ih (index + 1) fun q hq => h q (List.mem_cons_of_mem _ hq)
    exact ⟨r' :: l', by simp [updateRequests, hr', hl', bind, Except.bind, pure, Except.pure]⟩

/-- INTERNAL: a successful transition is legal and gives the advanced record. -/
theorem transition_ok (r r' : RequestRecord) (next : DirectStatus) (decision : DecisionOutcome)
    (now : ℕ) (d : DirectRecord) (hd : r.direct = some d)
    (h : r.transition next decision now = .ok r') :
    d.legal next = true ∧
      r' = ⟨r.id, (d.advance next decision now).review.status.lifecycle,
        some (d.advance next decision now)⟩ := by
  unfold RequestRecord.transition at h
  rw [hd] at h
  simp only at h
  split_ifs at h with hlegal
  simp only [Except.ok.injEq] at h
  exact ⟨hlegal, h.symm⟩

end VaultAccess.Analysis
