import VaultAccess.Analysis.Receipts
import VaultAccess.Analysis.Registry
import VaultAccess.Model.Machine

/-!
# Calls of the provider, and what they keep

One call of an operation is one event of the provider's runs. Whatever it does, records
only move on, markers and pairings stay; and a call that succeeds says what it found and
what it left.
-/

set_option autoImplicit false

namespace VaultAccess.Analysis

open VaultAccess.Library VaultAccess.Model

/-! ## What every event keeps -/

/-- The later record of a request. -/
structure RecordGrows (d d' : DirectRecord) : Prop where
  claimed : d.executionClaimed = true → d'.executionClaimed = true
  later : Later d d'
  receipt : ReceiptKept d d'

/-- What stays in a store. -/
structure StoreGrows (a b : Store) : Prop where
  direct : ∀ id d, a.durable.direct id = some d →
    ∃ d', b.durable.direct id = some d' ∧ RecordGrows d d'
  replayed : ∀ marker, a.durable.replayed marker = true → b.durable.replayed marker = true
  pairings : ∀ id ∈ a.durable.pairings.map (·.id), id ∈ b.durable.pairings.map (·.id)

theorem RecordGrows.refl (d : DirectRecord) : RecordGrows d d :=
  ⟨fun h => h, later_of_step (Or.inl rfl), receiptKept_of_step (Or.inl rfl)⟩

/-- INTERNAL: records of three states. -/
theorem RecordGrows.trans {d₁ d₂ d₃ : DirectRecord} (h : RecordGrows d₁ d₂)
    (h' : RecordGrows d₂ d₃) : RecordGrows d₁ d₃ := by
  refine ⟨fun hc => h'.claimed (h.claimed hc), ⟨h.later.audit.trans h'.later.audit, ?_⟩, ?_⟩
  · intro hterminal
    have hsame := h.later.terminal hterminal
    rw [h'.later.terminal (by rw [hsame]; exact hterminal), hsame]
  · refine ⟨h'.receipt.create.trans h.receipt.create, fun receipt hreceipt => ?_⟩
    obtain ⟨receipt₁, hreceipt₁, hitem₁⟩ := h.receipt.receipt receipt hreceipt
    obtain ⟨receipt₂, hreceipt₂, hitem₂⟩ := h'.receipt.receipt receipt₁ hreceipt₁
    exact ⟨receipt₂, hreceipt₂, fun item hitem => hitem₂ item (hitem₁ item hitem)⟩

theorem StoreGrows.of_durable {a b : Store} (h : b.durable = a.durable) : StoreGrows a b := by
  refine ⟨fun id d hd => ⟨d, by rw [h]; exact hd, .refl d⟩, fun _ hm => by rw [h]; exact hm,
    fun _ hid => by rw [h]; exact hid⟩

/-- INTERNAL: three states of a store. -/
theorem StoreGrows.trans {a b c : Store} (h : StoreGrows a b) (h' : StoreGrows b c) :
    StoreGrows a c := by
  refine ⟨fun id d hd => ?_, fun marker hm => h'.replayed marker (h.replayed marker hm),
    fun id hid => h'.pairings id (h.pairings id hid)⟩
  obtain ⟨d₁, hd₁, h₁⟩ := h.direct id d hd
  obtain ⟨d₂, hd₂, h₂⟩ := h'.direct id d₁ hd₁
  exact ⟨d₂, hd₂, h₁.trans h₂⟩

/-- INTERNAL: a revocation keeps the identifiers of bindings. -/
theorem map_id_revokeFirst (id : String) (l : List AgentBinding) :
    (revokeFirst id l).map (·.id) = l.map (·.id) := by
  induction l with
  | nil => rfl
  | cons b l ih =>
    unfold revokeFirst
    split_ifs
    · rfl
    · simp only [List.map_cons, ih]

/-- INTERNAL: no change of the state drops a pairing. -/
theorem StateStep.pairings {E : Externals} {ownerUid : UInt32} {env : Env} {legit : Prop}
    {s s' : ProviderState} (h : StateStep E ownerUid env legit s s') :
    s.pairings.map (·.id) <+: s'.pairings.map (·.id) := by
  cases h with
  | pair _ _ binding =>
    rw [List.map_append]
    exact List.prefix_append _ _
  | revoke id =>
    simp only [map_id_revokeFirst]
    exact List.prefix_refl _
  | create | updateOne | updateAll | invalidate | query | provision | register =>
    exact List.prefix_refl _

/-- INTERNAL: no change of the state drops a query marker. -/
theorem StateStep.queryReplayMarkers {E : Externals} {ownerUid : UInt32} {env : Env} {legit : Prop}
    {s s' : ProviderState} (h : StateStep E ownerUid env legit s s') :
    s.queryReplayMarkers <+: s'.queryReplayMarkers := by
  cases h with
  | query => exact List.prefix_append _ _
  | pair | revoke | create | updateOne | updateAll | invalidate | provision | register =>
    exact List.prefix_refl _

/-- INTERNAL: **markers are never removed.** -/
theorem StateStep.replayed {E : Externals} {ownerUid : UInt32} {env : Env} {legit : Prop}
    {s s' : ProviderState} (h : StateStep E ownerUid env legit s s') (marker : String)
    (hm : s.replayed marker = true) : s'.replayed marker = true := by
  simp only [ProviderState.replayed, Bool.or_eq_true, List.contains_iff_mem, List.any_eq_true]
    at hm ⊢
  rcases hm with hquery | ⟨r, hr, hdirect⟩
  · exact Or.inl (h.queryReplayMarkers.subset hquery)
  · refine Or.inr ?_
    obtain ⟨changed, new, heq, hchanged, -⟩ := h.requests
    obtain ⟨r', hr', hstep⟩ := exists_right_of_forall₂ hchanged r hr
    refine ⟨r', by rw [heq]; exact List.mem_append_left _ hr', ?_⟩
    rw [Option.any_eq_true_iff_get] at hdirect ⊢
    obtain ⟨hsome, hdigest⟩ := hdirect
    obtain ⟨d', hd', hchange⟩ := hstep.direct_step (Option.eq_some_of_isSome hsome)
    refine ⟨by rw [hd']; rfl, ?_⟩
    simp only [hd', Option.get_some]
    rcases hchange with heq' | hchange
    · rw [heq']
      exact hdigest
    · have hcore : d'.replayDigest = (r.direct.get hsome).replayDigest :=
        congrArg (·.replayDigest) hchange.core_eq
      rw [hcore]
      exact hdigest

section Events

variable {E : Externals} {ownerUid : UInt32}

/-- INTERNAL: **what one event keeps.** -/
theorem step_grows (store : Store) (event : Event) (hphase : InPhase store.durable) :
    StoreGrows store (step E ownerUid store event) := by
  refine ⟨fun id d hd => ?_, ?_, ?_⟩
  · obtain ⟨d', hd', hchange⟩ := step_direct store event hphase id d hd
    refine ⟨d', hd', ?_, later_of_step hchange, receiptKept_of_step hchange⟩
    rcases hchange with rfl | hstep
    · exact fun h => h
    · exact hstep.claimed_mono
  all_goals
    rcases @step_durable E ownerUid store event with hsame | ⟨s', hs', -, hnext⟩
  · rw [hsame]
    exact fun _ h => h
  · obtain ⟨s, -, hs, hstep⟩ := @handsOver_step E ownerUid False store event s' hphase
      (fun _ hl => hl.elim) hs'
    intro marker hm
    rw [hnext]
    refine hstep.replayed marker ?_
    rw [hs]
    exact hm
  · rw [hsame]
    exact fun _ h => h
  · obtain ⟨s, -, hs, hstep⟩ := @handsOver_step E ownerUid False store event s' hphase
      (fun _ hl => hl.elim) hs'
    intro id hid
    rw [hnext]
    refine hstep.pairings.subset ?_
    rw [hs]
    exact hid

/-! ## Calls -/

theorem handed_eq_eval (env : Env) (s : ProviderState) (op : Op) :
    op.handed E ownerUid env s = handedState (op.eval E ownerUid env s) := by
  cases op <;> rfl

/-- INTERNAL: **a call is one event, or nothing if the document could not be read.** -/
theorem call_store (store : Store) (op : Op) (env : Env) (w : WriteOutcome) (unreadable : Bool) :
    (store.call E ownerUid op env w unreadable).1 =
      if unreadable then store else step E ownerUid store (.op op env w) := by
  unfold Store.call
  cases unreadable with
  | true => rfl
  | false =>
    simp only [Bool.false_eq_true, if_false]
    unfold step Event.handsOver Event.reads
    simp only [Event.opened, Event.env, Event.handed, Event.outcome]
    cases hread : store.readState E ownerUid env.disk with
    | error e => rfl
    | ok s =>
      simp only [Option.bind_some, handed_eq_eval]
      cases heval : op.eval E ownerUid env s with
      | error e => rfl
      | ok handed =>
        simp only [handedState]
        cases handed.state with
        | none => rfl
        | some s' =>
          simp only
          split <;> rfl

/-- INTERNAL: a call keeps what an event keeps. -/
theorem call_grows (store : Store) (op : Op) (env : Env) (w : WriteOutcome) (unreadable : Bool)
    (hphase : InPhase store.durable) :
    StoreGrows store (store.call E ownerUid op env w unreadable).1 := by
  rw [call_store]
  split_ifs
  · exact .of_durable rfl
  · exact step_grows store _ hphase

/-- INTERNAL: a call keeps requests in phase. -/
theorem call_inPhase (store : Store) (op : Op) (env : Env) (w : WriteOutcome) (unreadable : Bool)
    (hphase : InPhase store.durable) :
    InPhase (store.call E ownerUid op env w unreadable).1.durable := by
  rw [call_store]
  split_ifs
  · exact hphase
  · exact step_inPhase store _ hphase

variable (E ownerUid) in
/-- What a call that succeeded read, decided and left. -/
structure CallOk (store store' : Store) (op : Op) (env : Env) (value : op.Value)
    (s : ProviderState) : Prop where
  reads : s = { store.durable with operations := s.operations }
  eval : ∃ handed, op.eval E ownerUid env s = .ok handed ∧ handed.value = value ∧
    (handed.state = none → store' = store) ∧ ∀ s', handed.state = some s' →
      store' = { store with durable := s' } ∧ s'.validateForOwner E env.disk ownerUid = true

/-- INTERNAL: a write that committed passed the validator. -/
theorem valid_of_writeState (disk : Disk) (store : Store) (s : ProviderState) (w : WriteOutcome)
    (h : (store.writeState E ownerUid disk s w).2.isOk = true) :
    s.validateForOwner E disk ownerUid = true := by
  unfold Store.writeState at h
  by_cases hpoisoned : store.poisoned = true
  · simp [hpoisoned, Except.isOk, Except.toBool] at h
  · rw [if_neg hpoisoned] at h
    by_contra hvalid
    rw [if_pos (by simpa using hvalid)] at h
    simp [Except.isOk, Except.toBool] at h

/-- INTERNAL: **a call that succeeds.** -/
theorem call_ok (store : Store) (op : Op) (env : Env) (w : WriteOutcome) (unreadable : Bool)
    (value : op.Value) (h : (store.call E ownerUid op env w unreadable).2 = .ok value) :
    ∃ s, CallOk E ownerUid store
      (store.call E ownerUid op env w unreadable).1 op env value s := by
  unfold Store.call at h ⊢
  cases unreadable with
  | true => simp at h
  | false =>
    simp only [Bool.false_eq_true, if_false] at h ⊢
    cases hread : store.readState E ownerUid env.disk with
    | error e => simp [hread] at h
    | ok s =>
      simp only [hread] at h ⊢
      have hreads : s = { store.durable with operations := s.operations } := by
        refine (@reads_eq E ownerUid store (.op op env w) s ?_).1
        unfold Event.reads
        simp only [Event.opened, Event.env, hread]
      cases heval : op.eval E ownerUid env s with
      | error e => simp [heval] at h
      | ok handed =>
        simp only [heval] at h ⊢
        refine ⟨s, hreads, handed, heval, ?_⟩
        cases hstate : handed.state with
        | none =>
          simp only [hstate, Except.ok.injEq] at h ⊢
          exact ⟨h, by simp, fun _ hs => by simp at hs⟩
        | some s' =>
          simp only [hstate] at h ⊢
          cases hresult : (store.writeState E ownerUid env.disk s' w).2 with
          | error e =>
            have hpair : store.writeState E ownerUid env.disk s' w =
                ((store.writeState E ownerUid env.disk s' w).1, .error e) := by rw [← hresult]
            rw [hpair] at h
            simp at h
          | ok u =>
            have hisOk : (store.writeState E ownerUid env.disk s' w).2.isOk = true := by
              rw [hresult]
              rfl
            rw [writeState_of_isOk env.disk store s' w hisOk] at h ⊢
            simp only [Except.ok.injEq] at h
            refine ⟨h, by simp, fun s₀ hs₀ => ?_⟩
            rw [← Option.some.inj hs₀]
            exact ⟨rfl, valid_of_writeState env.disk store s' w hisOk⟩

/-! ## Calls that succeed -/

/-- The request is stored as expired. -/
def Expired (id : String) (store : Store) : Prop :=
  ∃ d, store.durable.direct id = some d ∧ d.review.status = .expired

/-- INTERNAL: the record the state that was read has for a request. -/
theorem CallOk.direct {store store' : Store} {op : Op} {env : Env} {value : op.Value}
    {s : ProviderState} (h : CallOk E ownerUid store store' op env value s)
    {id : String} {r : RequestRecord} {d : DirectRecord} (hr : s.request id = some r)
    (hd : r.direct = some d) : store.durable.direct id = some d := by
  have hdirect : s.direct id = some d := by simp [ProviderState.direct, hr, hd]
  rw [h.reads] at hdirect
  exact hdirect

/-- INTERNAL: a claim that succeeds. -/
theorem claimExecution_call (store : Store) (owner : UInt32) (id : String) (env : Env)
    (w : WriteOutcome) (unreadable : Bool) (binding : ApprovalBinding)
    (hphase : InPhase store.durable)
    (h : (store.call E ownerUid (.claimExecution owner id) env w unreadable).2 = .ok binding) :
    (∃ d, store.durable.direct id = some d ∧ d.review.status = .approved ∧
      d.executionClaimed = false) ∧
    Claimed id (store.call E ownerUid (.claimExecution owner id) env w unreadable).1 ∧
    binding.requestId = id := by
  obtain ⟨s, hcall⟩ := call_ok store (.claimExecution owner id) env w unreadable binding h
  obtain ⟨handed, heval, hvalue, -, hstate⟩ := hcall.eval
  obtain ⟨r, d, hr, hd, -, hstatus, hunclaimed, -, -, rfl⟩ := claimExecution_ok owner id handed heval
  have hdirect := hcall.direct hr hd
  obtain ⟨hstore, -⟩ := hstate _ rfl
  refine ⟨⟨d, hdirect, hstatus, hunclaimed⟩,
    ⟨{ d with executionClaimed := true }, ?_, rfl⟩, ?_⟩
  · rw [hstore]
    exact direct_setRequest s id r _ hr rfl
  · have hmem : r ∈ store.durable.requests := by
      have := (mem_of_request s id r hr).1
      rw [hcall.reads] at this
      exact this
    obtain ⟨d₀, hd₀⟩ := hphase.phase r hmem
    have heq : d₀ = d := by
      rw [← Option.some.injEq, ← hd₀.direct, hd]
    rw [← hvalue]
    exact (heq ▸ hd₀.reviewId).trans (mem_of_request s id r hr).2

/-- INTERNAL: an unclaimed approval that is cancelled expires. -/
theorem cancelUnclaimedExecution_call (store : Store) (owner : UInt32) (id : String) (env : Env)
    (w : WriteOutcome) (unreadable : Bool)
    (h : (store.call E ownerUid (.cancelUnclaimedExecution owner id) env w unreadable).2 = .ok ()) :
    Expired id (store.call E ownerUid (.cancelUnclaimedExecution owner id) env w unreadable).1 := by
  obtain ⟨s, hcall⟩ := call_ok store (.cancelUnclaimedExecution owner id) env w unreadable () h
  obtain ⟨handed, heval, -, -, hstate⟩ := hcall.eval
  have hok : cancelUnclaimedExecution ownerUid env s owner id = .ok handed := heval
  simp only [cancelUnclaimedExecution, bind, Except.bind, pure, Except.pure] at hok
  split at hok
  · rename_i r hr
    split at hok
    · rename_i d hvisible
      have hd := direct_of_visible ownerUid s owner id r d hr hvisible
      split at hok
      · simp at hok
      split at hok
      · rename_i now _
        split at hok
        · simp at hok
        rename_i r' hr'
        simp only [Except.ok.injEq] at hok
        obtain ⟨-, hr'⟩ := transition_ok r r' .expired _ now d hd (mapError_eq_ok _ _ _ hr')
        obtain ⟨hstore, -⟩ := hstate (s.setRequest id r') (by rw [← hok])
        refine ⟨d.advance .expired .executionUnavailable now, ?_, rfl⟩
        rw [hstore]
        refine (direct_setRequest s id r r' hr (by rw [hr'])).trans ?_
        rw [hr']
      · simp at hok
    · simp at hok
  · simp at hok

/-- INTERNAL: a write that begins. -/
theorem beginWrite_call (store : Store) (binding : ApprovalBinding) (env : Env) (w : WriteOutcome)
    (unreadable : Bool)
    (h : (store.call E ownerUid (.beginWrite binding) env w unreadable).2 = .ok ()) :
    (∃ d, store.durable.direct binding.requestId = some d ∧ d.writeReceipt = none) ∧
    ∃ d, (store.call E ownerUid (.beginWrite binding) env w unreadable).1.durable.direct
      binding.requestId = some d ∧
      d.writeReceipt = some ⟨binding.requestId, none, .uncertain⟩ := by
  obtain ⟨s, hcall⟩ := call_ok store (.beginWrite binding) env w unreadable () h
  obtain ⟨handed, heval, -, -, hstate⟩ := hcall.eval
  obtain ⟨r, d, effect, hr, hd, -, -, -, hnone, -, -, rfl⟩ := beginWrite_ok binding handed heval
  obtain ⟨hstore, -⟩ := hstate _ rfl
  refine ⟨⟨d, hcall.direct hr hd, hnone⟩,
    { d with writeReceipt := some ⟨binding.requestId, none, .uncertain⟩ }, ?_, rfl⟩
  rw [hstore]
  exact direct_setRequest s binding.requestId r _ hr rfl

/-- INTERNAL: a new agent has a new identifier. -/
theorem pairAgent_call (store : Store) (human : UInt32) (input : AgentPairing) (now : ℕ) (env : Env)
    (w : WriteOutcome) (unreadable : Bool) (view : AgentBindingView)
    (h : (store.call E ownerUid (.pairAgent human input now) env w unreadable).2 = .ok view) :
    view.id ∉ store.durable.pairings.map (·.id) ∧
    view.id ∈ (store.call E ownerUid (.pairAgent human input now) env w unreadable).1.durable.pairings.map
      (·.id) := by
  obtain ⟨s, hcall⟩ := call_ok store (.pairAgent human input now) env w unreadable view h
  obtain ⟨handed, heval, hvalue, -, hstate⟩ := hcall.eval
  have hok : pairAgent E ownerUid env s human input now = .ok handed := heval
  simp only [pairAgent, bind, Except.bind, pure, Except.pure] at hok
  split at hok
  · simp at hok
  split at hok
  · split at hok
    · rename_i binding hbinding
      split_ifs at hok
      simp only [Except.ok.injEq] at hok
      obtain ⟨hstore, hvalid⟩ := hstate _ (by rw [← hok])
      have hid : view.id = binding.id := by
        rw [← hvalue, ← hok]
        rfl
      have hpairings : s.pairings = store.durable.pairings := by rw [hcall.reads]
      simp only [ProviderState.validateForOwner, Bool.and_eq_true] at hvalid
      have hids := ((validateRegistry_iff _ _).mp hvalid.1.1.1.1.1.1.1.1.2).ids
      rw [List.map_append, List.nodup_append] at hids
      rw [hid, hstore, ← hpairings]
      refine ⟨fun hmem => hids.2.2 _ hmem binding.id (by simp) rfl, by simp⟩
    · simp at hok
  · simp at hok

/-! ## Messages -/

/-- The marker of a pair is in the state. -/
def Seen (pair : String × String) (store : Store) : Prop :=
  ∃ marker, replayMarker E pair.1 pair.2 = .ok marker ∧ store.durable.replayed marker = true

/-- INTERNAL: what a signed submission that passes its own checks found. -/
theorem createSigned_fresh (env : Env) (s : ProviderState) (owner : AgentOwner)
    (input : SignedSubmission) (now expires : ℕ) (authorized : Bool) (handed : Handed DirectReview)
    (h : createSigned E env s owner input now expires authorized = .ok handed) :
    ∃ marker, replayMarker E input.bindingId input.nonce = .ok marker ∧
      s.replayed marker = false ∧
      createOwned E env s owner.uid (some owner) (some marker)
        ⟨input.operationId, some input.expectedPolicyRevision, input.args⟩ now expires authorized =
        .ok handed := by
  simp only [createSigned, SignedSubmission.replayDigest, bind, Except.bind] at h
  split at h
  · simp at h
  split at h
  · simp at h
  rename_i marker hmarker
  split at hmarker
  · simp at hmarker
  split_ifs at h with hreplayed
  exact ⟨marker, hmarker, by simpa using hreplayed, mapError_eq_ok _ _ _ h⟩

/-- INTERNAL: what a status query that passes its own checks found, and what it hands over. -/
theorem consumeStatusQuery_fresh (s : ProviderState) (owner : AgentOwner)
    (query : SignedStatusQuery) (handed : Handed Unit)
    (h : consumeStatusQuery E s owner query = .ok handed) :
    ∃ marker, replayMarker E query.bindingId query.nonce = .ok marker ∧
      s.replayed marker = false ∧
      handed = ⟨(), some { s with queryReplayMarkers := s.queryReplayMarkers ++ [marker] }⟩ := by
  simp only [consumeStatusQuery, SignedStatusQuery.replayDigest, bind, Except.bind, pure,
    Except.pure] at h
  split at h
  · simp at h
  split at h
  · simp at h
  split at h
  · simp at h
  rename_i marker hmarker
  split at hmarker
  · simp at hmarker
  split_ifs at h with hreplayed
  exact ⟨marker, hmarker, by simpa using hreplayed, (Except.ok.inj h).symm⟩

/-- INTERNAL: **a message that is admitted was new, and is marked from then on.** -/
theorem message_call (store : Store) (op : Op) (env : Env) (w : WriteOutcome) (unreadable : Bool)
    (value : op.Value) (pair : String × String) (hop : op.message = some pair)
    (h : (store.call E ownerUid op env w unreadable).2 = .ok value) :
    ¬ Seen (E := E) pair store ∧
    Seen (E := E) pair (store.call E ownerUid op env w unreadable).1 := by
  obtain ⟨s, hcall⟩ := call_ok store op env w unreadable value h
  obtain ⟨handed, heval, -, -, hstate⟩ := hcall.eval
  have hnew : ∀ marker, replayMarker E pair.1 pair.2 = .ok marker → s.replayed marker = false →
      ¬ Seen (E := E) pair store := by
    rintro marker hmarker hfresh ⟨marker', hmarker', hreplayed⟩
    rw [hmarker, Except.ok.injEq] at hmarker'
    rw [hcall.reads] at hfresh
    rw [← hmarker'] at hreplayed
    exact absurd (hreplayed.symm.trans hfresh) (by simp)
  cases op with
  | createSigned owner input now expires authorized =>
    simp only [Op.message, Option.some.injEq] at hop
    subst hop
    obtain ⟨marker, hmarker, hfresh, hcreated⟩ :=
      createSigned_fresh env s owner input now expires authorized handed heval
    refine ⟨hnew marker hmarker hfresh, marker, hmarker, ?_⟩
    obtain ⟨s', hs', r, hr⟩ : ∃ s', handed.state = some s' ∧ ∃ r ∈ s'.requests,
        r.direct.any (fun d => decide (d.replayDigest = some marker)) = true := by
      simp only [createOwned, bind, Except.bind, pure, Except.pure] at hcreated
      repeat' split at hcreated
      all_goals first
        | simp only [reduceCtorEq] at hcreated
        | (rw [← Except.ok.inj hcreated]
           exact ⟨_, rfl, _, List.mem_append_right _ (List.mem_singleton.mpr rfl), by
             simp [newRecord, DirectRecord.seal]⟩)
    obtain ⟨hstore, -⟩ := hstate s' hs'
    rw [hstore]
    simp only [ProviderState.replayed, Bool.or_eq_true, List.any_eq_true]
    exact Or.inr ⟨r, hr⟩
  | consumeStatusQuery owner query =>
    simp only [Op.message, Option.some.injEq] at hop
    subst hop
    obtain ⟨marker, hmarker, hfresh, hhanded⟩ := consumeStatusQuery_fresh s owner query handed heval
    refine ⟨hnew marker hmarker hfresh, marker, hmarker, ?_⟩
    obtain ⟨hstore, -⟩ := hstate _ (by rw [hhanded])
    rw [hstore]
    simp [ProviderState.replayed]
  | pairAgent | revokeAgent | createDirect | expireDirect | decideDirect | claimExecution
  | executionStarted | finishExecution | cancelUnclaimedExecution | failDirectLaunch | beginWrite
  | recordWrite | reconcileWrite | provisionOperation | registerImage | lock => simp [Op.message] at hop

/-- INTERNAL: **a message that was seen is handed to no store.** -/
theorem handsOver_seen (store : Store) (op : Op) (env : Env) (w : WriteOutcome)
    (pair : String × String) (hop : op.message = some pair) (h : Seen (E := E) pair store) :
    Event.handsOver E ownerUid store (.op op env w) = none := by
  by_contra hne
  obtain ⟨s', hs'⟩ := Option.ne_none_iff_exists'.mp hne
  unfold Event.handsOver at hs'
  rw [Option.bind_eq_some_iff] at hs'
  obtain ⟨s, hreads, hhanded⟩ := hs'
  obtain ⟨hs, -, -⟩ := reads_eq store _ s hreads
  obtain ⟨marker, hmarker, hreplayed⟩ := h
  have hseen : s.replayed marker = true := by
    rw [hs]
    exact hreplayed
  have hcontra : ∀ marker', replayMarker E pair.1 pair.2 = .ok marker' →
      s.replayed marker' = false → False := by
    intro marker' hmarker' hfresh
    rw [hmarker, Except.ok.injEq] at hmarker'
    rw [← hmarker', hseen] at hfresh
    simp at hfresh
  simp only [Event.handed, handed_eq_eval] at hhanded
  obtain ⟨handed, heval, -⟩ := handedState_eq_some _ _ hhanded
  cases op with
  | createSigned owner input now expires authorized =>
    simp only [Op.message, Option.some.injEq] at hop
    subst hop
    obtain ⟨marker', hmarker', hfresh, -⟩ :=
      createSigned_fresh env s owner input now expires authorized handed heval
    exact hcontra marker' hmarker' hfresh
  | consumeStatusQuery owner query =>
    simp only [Op.message, Option.some.injEq] at hop
    subst hop
    obtain ⟨marker', hmarker', hfresh, -⟩ := consumeStatusQuery_fresh s owner query handed heval
    exact hcontra marker' hmarker' hfresh
  | pairAgent | revokeAgent | createDirect | expireDirect | decideDirect | claimExecution
  | executionStarted | finishExecution | cancelUnclaimedExecution | failDirectLaunch | beginWrite
  | recordWrite | reconcileWrite | provisionOperation | registerImage | lock => simp [Op.message] at hop

end Events

end VaultAccess.Analysis
