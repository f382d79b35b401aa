import VaultAccess.Analysis.Lifecycle

/-!
# Write receipts over whole runs

A receipt is never dropped, an item once named in it stays, and two requests never hold
receipts for one destination.
-/

set_option autoImplicit false

namespace VaultAccess.Analysis

open VaultAccess.Library VaultAccess.Model

/-! ## One record -/

/-- INTERNAL: **a receipt stays, and so does the item it names.** -/
theorem DirectStep.receipt_keep {legit : Prop} {d d' : DirectRecord} (h : DirectStep legit d d')
    (receipt : WriteReceipt) (hreceipt : d.writeReceipt = some receipt) :
    ∃ receipt', d'.writeReceipt = some receipt' ∧
      ∀ item, receipt.itemId = some item → receipt'.itemId = some item := by
  cases h with
  | decide approve method now _ _ _ =>
    exact ⟨receipt, by rw [decided_receipt, hreceipt], fun _ h => h⟩
  | expire decision now _ _ => exact ⟨receipt, hreceipt, fun _ h => h⟩
  | claim _ _ => exact ⟨receipt, hreceipt, fun _ h => h⟩
  | start decision now _ _ => exact ⟨receipt, hreceipt, fun _ h => h⟩
  | complete exitCode decision now _ _ _ => exact ⟨receipt, hreceipt, fun _ h => h⟩
  | fail reason decision now _ _ => exact ⟨receipt, hreceipt, fun _ h => h⟩
  | begin _ _ hnone _ =>
    rw [hreceipt] at hnone
    simp at hnone
  | record old item status hold hitem _ =>
    rw [hreceipt, Option.some.injEq] at hold
    subst hold
    exact ⟨_, rfl, fun _ h => hitem _ h⟩
  | reconcile old itemId now _ hold hitem _ _ =>
    rw [hreceipt, Option.some.injEq] at hold
    subst hold
    exact ⟨_, rfl, fun _ h => congrArg some (hitem _ h).symm⟩

/-! ## Destinations -/

/-- The request holds a receipt for a creation effect. -/
def HoldsReceipt (r : RequestRecord) (c : CreateEffect) : Prop :=
  ∃ d, r.direct = some d ∧ d.writeReceipt.isSome = true ∧ d.review.create = some c

/-- Two requests with receipts for one destination are one request. -/
def Exclusive (s : ProviderState) : Prop :=
  ∀ q ∈ s.requests, ∀ r ∈ s.requests, ∀ c c', HoldsReceipt q c → HoldsReceipt r c' →
    c.sameDestination c' = true → q.id = r.id

theorem sameDestination_comm (c c' : CreateEffect) (h : c.sameDestination c' = true) :
    c'.sameDestination c = true := by
  simp only [CreateEffect.sameDestination, Bool.and_eq_true, decide_eq_true_eq] at h ⊢
  exact ⟨h.1.symm, h.2.symm⟩

/-- INTERNAL: a change keeps the effect of a request and, if it held none, the guard applies. -/
theorem holdsReceipt_back {legit : Prop} {r r' : RequestRecord} {c : CreateEffect}
    (hstep : RequestStep legit r r') (h : HoldsReceipt r' c) :
    HoldsReceipt r c ∨ (receiptOf r = none ∧ receiptOf r' ≠ none ∧
      ∃ d, r.direct = some d ∧ d.review.create = some c) := by
  cases hstep with
  | same => exact Or.inl h
  | change d d' hd hchange =>
    obtain ⟨d₀, hd₀, hreceipt, hcreate⟩ := h
    rw [Option.some.injEq] at hd₀
    subst hd₀
    have hcreate' : d'.review.create = d.review.create :=
      congrArg (·.review.create) hchange.core_eq
    rw [hcreate'] at hcreate
    cases hold : d.writeReceipt with
    | some receipt => exact Or.inl ⟨d, hd, by rw [hold]; rfl, hcreate⟩
    | none =>
      refine Or.inr ⟨by simp [receiptOf, hd, hold], ?_, d, hd, hcreate⟩
      simpa [receiptOf] using Option.isSome_iff_ne_none.mp hreceipt

/-- INTERNAL: a sweep that keeps receipts keeps them exclusive. -/
theorem exclusive_sweep {legit : Prop} {s : ProviderState} {requests : List RequestRecord}
    (h : Exclusive s) (hrequests : List.Forall₂ (fun r r' => RequestStep legit r r' ∧
      receiptOf r' = receiptOf r) s.requests requests) :
    ∀ q ∈ requests, ∀ r ∈ requests, ∀ c c', HoldsReceipt q c → HoldsReceipt r c' →
      c.sameDestination c' = true → q.id = r.id := by
  have hback : ∀ r' ∈ requests, ∀ c, HoldsReceipt r' c →
      ∃ r ∈ s.requests, r'.id = r.id ∧ HoldsReceipt r c := by
    intro r' hr' c hc
    obtain ⟨r, hr, hstep, hreceipt⟩ := exists_left_of_forall₂ hrequests r' hr'
    refine ⟨r, hr, hstep.id_eq, ?_⟩
    rcases holdsReceipt_back hstep hc with hold | ⟨hnone, hsome, -⟩
    · exact hold
    · exact absurd (hreceipt.trans hnone) hsome
  intro q' hq' r' hr' c c' hc hc' hsame
  obtain ⟨q, hq, hqid, hqc⟩ := hback q' hq' c hc
  obtain ⟨r, hr, hrid, hrc⟩ := hback r' hr' c' hc'
  rw [hqid, hrid]
  exact h q hq r hr c c' hqc hrc hsame

/-- INTERNAL: **every change of the state keeps receipts exclusive.** -/
theorem StateStep.exclusive {E : Externals} {ownerUid : UInt32} {env : Env} {legit : Prop}
    {s s' : ProviderState} (hstep : StateStep E ownerUid env legit s s') (h : Exclusive s) :
    Exclusive s' := by
  cases hstep with
  | pair => exact h
  | revoke id binding now requests _ _ hrequests => exact exclusive_sweep h hrequests
  | create uid agentOwner replayDigest policy values args now expires random =>
    have hnew : ∀ r ∈ s.requests ++ [newRequest E s uid agentOwner replayDigest policy args now
        expires random], ∀ c, HoldsReceipt r c → r ∈ s.requests := by
      intro r hr c hc
      rcases List.mem_append.mp hr with hold | hlast
      · exact hold
      · rw [List.mem_singleton.mp hlast] at hc
        obtain ⟨d, hd, hreceipt, -⟩ := hc
        rw [newRequest, Option.some.injEq] at hd
        rw [← hd] at hreceipt
        simp [newRecord, DirectRecord.seal] at hreceipt
    intro q hq r hr c c' hc hc' hsame
    exact h q (hnew q hq c hc) r (hnew r hr c' hc') c c' hc hc' hsame
  | updateOne p r r' hfind hchange hguard =>
    have hold : ∀ q' ∈ setFirst p r' s.requests, q' ∈ s.requests ∨ q' = r' := by
      have hall := forall₂_setFirst p (fun q q' => q' = q ∨ q' = r') (fun _ => Or.inl rfl)
        s.requests r r' hfind (Or.inr rfl)
      intro q' hq'
      obtain ⟨q, hq, hcase⟩ := exists_left_of_forall₂ hall q' hq'
      rcases hcase with rfl | rfl
      · exact Or.inl hq
      · exact Or.inr rfl
    have hr : r ∈ s.requests := List.mem_of_find?_eq_some hfind
    -- the updated request against one that stayed
    have hupdated : ∀ q ∈ s.requests, ∀ c c', HoldsReceipt q c → HoldsReceipt r' c' →
        c.sameDestination c' = true → q.id = r'.id := by
      intro q hq c c' hc hc' hsame
      rw [hchange.id_eq]
      rcases holdsReceipt_back hchange hc' with hheld | ⟨hnone, hsome, d, hd, hcreate⟩
      · exact h q hq r hr c c' hc hheld hsame
      · obtain ⟨d₀, effect, hd₀, heffect, hexcl⟩ := hguard hnone hsome
        rw [hd, Option.some.injEq] at hd₀
        subst hd₀
        rw [hcreate, Option.some.injEq] at heffect
        subst heffect
        by_contra hne
        obtain ⟨dq, hdq, hreceipt, hcq⟩ := hc
        exact hexcl q hq hne ⟨dq, c, hdq, hreceipt, hcq, hsame⟩
    intro q hq x hx c c' hc hc' hsame
    rcases hold q hq with hqold | hqnew
    · rcases hold x hx with hxold | hxnew
      · exact h q hqold x hxold c c' hc hc' hsame
      · rw [hxnew] at hc' ⊢
        exact hupdated q hqold c c' hc hc' hsame
    · rcases hold x hx with hxold | hxnew
      · rw [hqnew] at hc ⊢
        exact (hupdated x hxold c' c hc' hc (sameDestination_comm c c' hsame)).symm
      · rw [hqnew, hxnew]
  | updateAll requests hrequests => exact exclusive_sweep h hrequests
  | invalidate requests hrequests _ => exact exclusive_sweep h hrequests
  | query => exact h
  | provision => exact h
  | register => exact h

/-! ## Whole runs -/

section Runs

variable {E : Externals} {ownerUid : UInt32}

/-- INTERNAL: one event keeps receipts exclusive. -/
theorem step_exclusive (store : Store) (event : Event) (hphase : InPhase store.durable)
    (h : Exclusive store.durable) : Exclusive (step E ownerUid store event).durable := by
  rcases @step_durable E ownerUid store event with hsame | ⟨s', hs', -, hnext⟩
  · rw [hsame]
    exact h
  · obtain ⟨s, -, hs, hstep⟩ := @handsOver_step E ownerUid False store event s' hphase
      (fun _ hl => hl.elim) hs'
    rw [hnext]
    refine hstep.exclusive ?_
    rw [hs]
    exact h

/-- INTERNAL: receipts are exclusive in every state of every run. -/
theorem run_exclusive (events : List Event) :
    Exclusive (run E ownerUid Store.initial events).durable := by
  have hboth := run_invariant (step E ownerUid)
    (fun store => InPhase store.durable ∧ Exclusive store.durable)
    (fun store event h => ⟨step_inPhase store event h.1, step_exclusive store event h.1 h.2⟩)
    Store.initial events ⟨initial_inPhase, fun _ hq => absurd hq List.not_mem_nil⟩
  exact hboth.2

/-- The later record keeps the effect and the receipt, and the item it names. -/
structure ReceiptKept (d d' : DirectRecord) : Prop where
  create : d'.review.create = d.review.create
  receipt : ∀ receipt, d.writeReceipt = some receipt → ∃ receipt', d'.writeReceipt = some receipt' ∧
    ∀ item, receipt.itemId = some item → receipt'.itemId = some item

theorem receiptKept_of_step {d d' : DirectRecord} (h : d' = d ∨ DirectStep False d d') :
    ReceiptKept d d' := by
  rcases h with rfl | hstep
  · exact ⟨rfl, fun receipt hreceipt => ⟨receipt, hreceipt, fun _ h => h⟩⟩
  · exact ⟨congrArg (·.review.create) hstep.core_eq, hstep.receipt_keep⟩

/-- INTERNAL: a receipt is kept through a run from any state in phase. -/
theorem run_receiptKept (store : Store) (later : List Event) (hphase : InPhase store.durable)
    (id : String) (d : DirectRecord) (hd : store.durable.direct id = some d) :
    ∃ d', (run E ownerUid store later).durable.direct id = some d' ∧ ReceiptKept d d' :=
  run_relation (step E ownerUid) (fun store => InPhase store.durable)
    (fun a b => ∀ d, a.durable.direct id = some d →
      ∃ d', b.durable.direct id = some d' ∧ ReceiptKept d d')
    (fun _ d hd => ⟨d, hd, receiptKept_of_step (Or.inl rfl)⟩)
    (fun a b c hab hbc d hd => by
      obtain ⟨d₁, hd₁, h₁⟩ := hab d hd
      obtain ⟨d₂, hd₂, h₂⟩ := hbc d₁ hd₁
      refine ⟨d₂, hd₂, h₂.create.trans h₁.create, fun receipt hreceipt => ?_⟩
      obtain ⟨receipt₁, hreceipt₁, hitem₁⟩ := h₁.receipt receipt hreceipt
      obtain ⟨receipt₂, hreceipt₂, hitem₂⟩ := h₂.receipt receipt₁ hreceipt₁
      exact ⟨receipt₂, hreceipt₂, fun item hitem => hitem₂ item (hitem₁ item hitem)⟩)
    (fun store event => step_inPhase store event)
    (fun store event hp d hd => by
      obtain ⟨d', hd', hchange⟩ := step_direct store event hp id d hd
      exact ⟨d', hd', receiptKept_of_step hchange⟩)
    store later hphase d hd

end Runs

end VaultAccess.Analysis
