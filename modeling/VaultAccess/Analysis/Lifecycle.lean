import VaultAccess.Library.Runs
import VaultAccess.Analysis.Stored

/-!
# The lifecycle of requests over whole runs

A run is any sequence of operations and restarts, with any readings, any arguments
and any way for a write to end. Requests are never removed, each moves along its
lifecycle, and a request is claimed at most once.
-/

set_option autoImplicit false

namespace VaultAccess.Analysis

open VaultAccess.Library VaultAccess.Model

/-! ## What the durable state always satisfies -/

/-- Every request is a direct request in phase, and identifiers name one request. -/
structure InPhase (s : ProviderState) : Prop where
  phase : ∀ r ∈ s.requests, ∃ d, RequestPhase r d
  unique : (s.requests.map (·.id)).Nodup

/-- INTERNAL: requests before a change, the same requests after it, then new ones. -/
def Requests (legit : Prop) (l l' : List RequestRecord) : Prop :=
  ∃ changed new, l' = changed ++ new ∧ List.Forall₂ (RequestStep legit) l changed ∧
    ∀ r ∈ new, ∃ d, RequestPhase r d

theorem Requests.refl (legit : Prop) (l : List RequestRecord) : Requests legit l l :=
  ⟨l, [], by simp, List.forall₂_same.mpr fun _ _ => .same, by simp⟩

/-- INTERNAL: a new request is pending. -/
theorem newRequest_phase (E : Externals) (s : ProviderState) (uid : UInt32)
    (agentOwner : Option AgentOwner) (replayDigest : Option String) (policy : OperationPolicy)
    (args : List String) (now expires : ℕ) (random : Vector UInt8 32) :
    ∃ d, RequestPhase
      (newRequest E s uid agentOwner replayDigest policy args now expires random) d := by
  refine ⟨_, rfl, ?_, ?_, ?_⟩
  · cases agentOwner <;> rfl
  · cases agentOwner <;> rfl
  · refine ⟨?_, ?_, ?_⟩
    · intro hclaimed
      simp [newRecord, DirectRecord.seal] at hclaimed
    · intro hexecuted
      cases agentOwner <;>
        simp [newRecord, DirectRecord.seal, ownedReview, OperationPolicy.directReview,
          DirectStatus.isExecuted] at hexecuted
    · intro _
      rfl

/-- INTERNAL: **a change of the state changes each request and adds new ones.** -/
theorem StateStep.requests {E : Externals} {ownerUid : UInt32} {env : Env} {legit : Prop}
    {s s' : ProviderState} (h : StateStep E ownerUid env legit s s') :
    Requests legit s.requests s'.requests := by
  cases h with
  | pair => exact .refl _ _
  | revoke id binding now requests _ _ hrequests =>
    exact ⟨requests, [], by simp, hrequests.imp fun _ _ h => h.1, by simp⟩
  | create uid agentOwner replayDigest policy values args now expires random =>
    refine ⟨s.requests, [_], rfl, List.forall₂_same.mpr fun _ _ => .same, ?_⟩
    intro r hr
    rw [List.mem_singleton.mp hr]
    exact newRequest_phase E s uid agentOwner replayDigest policy args now expires random
  | updateOne p r r' hfind hstep _ =>
    exact ⟨_, [], (List.append_nil _).symm,
      forall₂_setFirst p _ (fun _ => .same) s.requests r r' hfind hstep, by simp⟩
  | updateAll requests hrequests =>
    exact ⟨requests, [], by simp, hrequests.imp fun _ _ h => h.1, by simp⟩
  | invalidate requests hrequests _ =>
    exact ⟨requests, [], by simp, hrequests.imp fun _ _ h => h.1, by simp⟩
  | query => exact .refl _ _
  | provision => exact .refl _ _
  | register => exact .refl _ _

/-! ## One event -/

section Events

variable {E : Externals} {ownerUid : UInt32}

/-- INTERNAL: an event leaves the durable state alone or stores the state it handed over. -/
theorem step_durable (store : Store) (event : Event) :
    (step E ownerUid store event).durable = store.durable ∨
      ∃ s, event.handsOver E ownerUid store = some s ∧
        s.validateForOwner E event.env.disk ownerUid = true ∧
        (step E ownerUid store event).durable = s := by
  have hopened : (event.opened store).durable = store.durable := by cases event <;> rfl
  have hclosed : ∀ store : Store, (event.closed store).durable = store.durable := by
    cases event <;> exact fun _ => rfl
  unfold step
  cases hhanded : event.handsOver E ownerUid store with
  | none => exact Or.inl (hclosed store)
  | some s =>
    unfold Store.writeState
    simp only
    split_ifs with hpoisoned hvalid
    · exact Or.inl ((hclosed _).trans hopened)
    · exact Or.inl ((hclosed _).trans hopened)
    · simp only [Bool.not_eq_true, Bool.not_eq_false'] at hvalid
      cases event.outcome with
      | committed => exact Or.inr ⟨s, rfl, hvalid, rfl⟩
      | failedBefore diagnostic => exact Or.inl ((hclosed _).trans hopened)
      | uncertain kept =>
        cases kept with
        | true => exact Or.inr ⟨s, rfl, hvalid, hclosed _⟩
        | false => exact Or.inl ((hclosed _).trans hopened)

/-- INTERNAL: a write that returns `Ok` stores the state it was given. -/
theorem writeState_of_isOk (disk : Disk) (store : Store) (s : ProviderState) (w : WriteOutcome)
    (h : (store.writeState E ownerUid disk s w).2.isOk = true) :
    store.writeState E ownerUid disk s w = ({ store with durable := s }, .ok ()) := by
  unfold Store.writeState at h ⊢
  by_cases hpoisoned : store.poisoned = true
  · simp [hpoisoned, Except.isOk, Except.toBool] at h
  · rw [if_neg hpoisoned] at h ⊢
    by_cases hvalid : (!s.validateForOwner E disk ownerUid) = true
    · simp [hvalid, Except.isOk, Except.toBool] at h
    · rw [if_neg hvalid] at h ⊢
      cases w with
      | committed => rfl
      | failedBefore diagnostic => simp [Except.isOk, Except.toBool] at h
      | uncertain kept => simp [Except.isOk, Except.toBool] at h

/-- INTERNAL: an operation that returns `Ok` leaves the state it handed over. -/
theorem step_of_isOk (store : Store) (op : Op) (env : Env) (w : WriteOutcome) (s : ProviderState)
    (hs : Event.handsOver E ownerUid store (.op op env w) = some s)
    (h : (store.writeState E ownerUid env.disk s w).2.isOk = true) :
    step E ownerUid store (.op op env w) = { store with durable := s } := by
  have hwrite : (Event.opened store (.op op env w)).writeState E ownerUid
      (Event.op op env w).env.disk s (Event.op op env w).outcome = ({ store with durable := s }, .ok ()) :=
    writeState_of_isOk env.disk store s w h
  simp only [step, hs, hwrite]

/-- INTERNAL: what an event reads is the durable state, up to policies. -/
theorem reads_eq (store : Store) (event : Event) (s : ProviderState)
    (h : event.reads E ownerUid store = some s) :
    s = { store.durable with operations := s.operations } ∧
      store.durable.wire.tryFrom E event.env.disk = some s ∧
      s.validateForOwner E event.env.disk ownerUid = true := by
  have hopened : (event.opened store).durable = store.durable := by cases event <;> rfl
  unfold Event.reads Store.readState at h
  rw [hopened] at h
  split at h
  · rename_i s₀ hread
    rw [Option.some.injEq] at h
    subst h
    split_ifs at hread with hpoisoned
    split at hread
    · simp at hread
    · rename_i s₁ hdecoded
      split_ifs at hread with hvalid
      rw [Except.ok.injEq] at hread
      subst hread
      exact ⟨eq_of_tryFrom E _ _ _ hdecoded, hdecoded, hvalid⟩
  · simp at h

/-- INTERNAL: the state an event hands over is a listed change of the state it read. -/
theorem handsOver_step {legit : Prop} (store : Store) (event : Event) (s' : ProviderState)
    (hphase : InPhase store.durable)
    (hargs : ∀ s, legit → event.reads E ownerUid store = some s → CallerEvent s event)
    (h : event.handsOver E ownerUid store = some s') :
    ∃ s, event.reads E ownerUid store = some s ∧
      s = { store.durable with operations := s.operations } ∧
      StateStep E ownerUid event.env legit s s' := by
  unfold Event.handsOver at h
  rw [Option.bind_eq_some_iff] at h
  obtain ⟨s, hreads, hhanded⟩ := h
  obtain ⟨hs, -, -⟩ := reads_eq store event s hreads
  refine ⟨s, hreads, hs, event_handed_step event ?_ (fun hl => hargs s hl hreads) hhanded⟩
  rw [hs]
  exact hphase.phase

/-- INTERNAL: **one event changes each request along its lifecycle.** -/
theorem step_requests (store : Store) (event : Event) (hphase : InPhase store.durable) :
    Requests False store.durable.requests (step E ownerUid store event).durable.requests := by
  rcases @step_durable E ownerUid store event with hsame | ⟨s', hs', -, hnext⟩
  · rw [hsame]
    exact .refl _ _
  · obtain ⟨s, -, hs, hstep⟩ := @handsOver_step E ownerUid False store event s' hphase
      (fun _ hl => hl.elim) hs'
    have hrequests := hstep.requests
    rw [hs] at hrequests
    rw [hnext]
    exact hrequests

/-- INTERNAL: **every event keeps requests in phase and their identifiers apart.** -/
theorem step_inPhase (store : Store) (event : Event) (hphase : InPhase store.durable) :
    InPhase (step E ownerUid store event).durable := by
  constructor
  · intro r' hr'
    obtain ⟨changed, new, heq, hchanged, hnew⟩ :=
      @step_requests E ownerUid store event hphase
    rw [heq] at hr'
    rcases List.mem_append.mp hr' with hold | hnewer
    · obtain ⟨r, hr, hstep⟩ := exists_left_of_forall₂ hchanged r' hold
      exact hstep.requestPhase (hphase.phase r hr)
    · exact hnew r' hnewer
  · rcases @step_durable E ownerUid store event with hsame | ⟨s', -, hvalid, hnext⟩
    · rw [hsame]
      exact hphase.unique
    · rw [hnext]
      simp only [ProviderState.validateForOwner, Bool.and_eq_true, decide_eq_true_eq] at hvalid
      exact hvalid.1.2

theorem initial_inPhase : InPhase Store.initial.durable :=
  ⟨fun _ hr => absurd hr List.not_mem_nil, List.nodup_nil⟩

/-- INTERNAL: **every state of every run is in phase.** -/
theorem run_inPhase (events : List Event) :
    InPhase (run E ownerUid Store.initial events).durable :=
  run_invariant (step E ownerUid) (fun store => InPhase store.durable)
    (fun store event => step_inPhase store event) Store.initial events initial_inPhase

/-! ## One request -/

/-- INTERNAL: the request of an identifier, before and after. -/
theorem find_of_requests {legit : Prop} {l l' : List RequestRecord} (h : Requests legit l l')
    (id : String) (r : RequestRecord) (hr : l.find? (·.id = id) = some r) :
    ∃ r', l'.find? (·.id = id) = some r' ∧ RequestStep legit r r' := by
  obtain ⟨changed, new, rfl, hchanged, -⟩ := h
  rw [List.find?_append]
  induction hchanged with
  | nil => simp at hr
  | @cons a b l l' hab _ ih =>
    rw [List.find?_cons] at hr ⊢
    rw [hab.id_eq]
    by_cases hid : a.id = id
    · simp only [hid, decide_true, Option.some.injEq] at hr ⊢
      rw [← hr]
      exact ⟨b, rfl, hab⟩
    · simp only [hid, decide_false] at hr ⊢
      exact ih hr

/-- INTERNAL: the record of an identifier, before and after one event. -/
theorem step_direct (store : Store) (event : Event) (hphase : InPhase store.durable) (id : String)
    (d : DirectRecord) (hd : store.durable.direct id = some d) :
    ∃ d', (step E ownerUid store event).durable.direct id = some d' ∧
      (d' = d ∨ DirectStep False d d') := by
  unfold ProviderState.direct ProviderState.request at hd
  rw [Option.bind_eq_some_iff] at hd
  obtain ⟨r, hr, hdirect⟩ := hd
  obtain ⟨r', hr', hstep⟩ :=
    find_of_requests (@step_requests E ownerUid store event hphase) id r hr
  obtain ⟨d', hd', hchange⟩ := hstep.direct_step hdirect
  exact ⟨d', by simp [ProviderState.direct, ProviderState.request, hr', hd'], hchange⟩

/-- INTERNAL: a record that is stored is in phase. -/
theorem phase_of_direct {s : ProviderState} (hphase : InPhase s) (id : String) (d : DirectRecord)
    (hd : s.direct id = some d) : Phase d := by
  unfold ProviderState.direct at hd
  rw [Option.bind_eq_some_iff] at hd
  obtain ⟨r, hr, hdirect⟩ := hd
  exact (phase_of_request hphase.phase hr hdirect).phase

/-! ## Claims -/

/-- The event is a call of `claim_execution` for the request, and it returns `Ok`. -/
def claimsExecution (E : Externals) (ownerUid : UInt32) (id : String) (store : Store) : Event → Bool
  | .op (.claimExecution owner requestId) env w =>
    requestId = id &&
      match Event.handsOver E ownerUid store (.op (.claimExecution owner requestId) env w) with
      | some s => (store.writeState E ownerUid env.disk s w).2.isOk
      | none => false
  | _ => false

/-- The request is stored as claimed. -/
def Claimed (id : String) (store : Store) : Prop :=
  ∃ d, store.durable.direct id = some d ∧ d.executionClaimed = true

/-- INTERNAL: a claim is stored for good. -/
theorem step_claimed (store : Store) (event : Event) (hphase : InPhase store.durable) (id : String)
    (h : Claimed id store) : Claimed id (step E ownerUid store event) := by
  obtain ⟨d, hd, hclaimed⟩ := h
  obtain ⟨d', hd', hchange⟩ := @step_direct E ownerUid store event hphase id d hd
  refine ⟨d', hd', ?_⟩
  rcases hchange with rfl | hstep
  · exact hclaimed
  · exact hstep.claimed_mono hclaimed

/-- INTERNAL: what a successful call of `claim_execution` read and handed over. -/
theorem claimsExecution_ok (store : Store) (event : Event) (id : String)
    (h : claimsExecution E ownerUid id store event = true) :
    ∃ s r d, event.reads E ownerUid store = some s ∧ s.request id = some r ∧ r.direct = some d ∧
      d.executionClaimed = false ∧ (step E ownerUid store event).durable =
        s.setRequest id { r with direct := some { d with executionClaimed := true } } := by
  unfold claimsExecution at h
  split at h
  · rename_i owner requestId env w
    simp only [Bool.and_eq_true, decide_eq_true_eq] at h
    obtain ⟨rfl, h⟩ := h
    split at h
    · rename_i s' hs'
      have hover := hs'
      unfold Event.handsOver at hover
      rw [Option.bind_eq_some_iff] at hover
      obtain ⟨s, hreads, hhanded⟩ := hover
      obtain ⟨handed, hok, hstate⟩ := handedState_eq_some _ _ hhanded
      obtain ⟨r, d, hr, hd, -, -, hclaimed, -, -, rfl⟩ := claimExecution_ok owner _ handed hok
      refine ⟨s, r, d, hreads, hr, hd, hclaimed, ?_⟩
      rw [Option.some.injEq] at hstate
      rw [hstate]
      exact congrArg Store.durable (step_of_isOk store _ env w s' hs' h)
    · simp at h
  · simp at h

/-- INTERNAL: the first match of a list in which it was overwritten. -/
theorem find_setFirst (id : String) (r r' : RequestRecord) (l : List RequestRecord)
    (hr : l.find? (·.id = id) = some r) (hid : r'.id = id) :
    (setFirst (·.id = id) r' l).find? (·.id = id) = some r' := by
  induction l with
  | nil => simp at hr
  | cons a l ih =>
    rw [List.find?_cons] at hr
    unfold setFirst
    by_cases ha : a.id = id
    · simp [ha, hid]
    · simp only [ha, decide_false, Bool.false_eq_true, if_false] at hr ⊢
      simp only [List.find?_cons, ha, decide_false]
      exact ih hr

/-- INTERNAL: overwriting a request is seen by the next lookup. -/
theorem direct_setRequest (s : ProviderState) (id : String) (r r' : RequestRecord)
    (hr : s.request id = some r) (hid : r'.id = r.id) :
    (s.setRequest id r').direct id = r'.direct := by
  unfold ProviderState.direct ProviderState.request ProviderState.setRequest
  rw [find_setFirst id r r' s.requests hr (hid.trans (mem_of_request s id r hr).2)]
  rfl

/-- INTERNAL: a claimed request is not claimed again. -/
theorem claimsExecution_claimed (store : Store) (event : Event) (id : String)
    (hclaimed : Claimed id store) : claimsExecution E ownerUid id store event = false := by
  by_contra hclaims
  rw [Bool.not_eq_false] at hclaims
  obtain ⟨s, r, d, hreads, hr, hd, hunclaimed, -⟩ := claimsExecution_ok store event id hclaims
  obtain ⟨hs, -, -⟩ := reads_eq store event s hreads
  obtain ⟨d', hd', hc⟩ := hclaimed
  have hdirect : s.direct id = some d := by simp [ProviderState.direct, hr, hd]
  rw [hs] at hdirect
  have heq : some d' = some d := hd'.symm.trans hdirect
  rw [Option.some.injEq] at heq
  rw [heq, hunclaimed] at hc
  simp at hc

/-- INTERNAL: a successful claim is stored. -/
theorem claimed_of_claimsExecution (store : Store) (event : Event) (id : String)
    (h : claimsExecution E ownerUid id store event = true) :
    Claimed id (step E ownerUid store event) := by
  obtain ⟨s, r, d, -, hr, hd, -, hnext⟩ := claimsExecution_ok store event id h
  refine ⟨{ d with executionClaimed := true }, ?_, rfl⟩
  rw [hnext]
  exact direct_setRequest s id r _ hr rfl

/-! ## Whole runs -/

/-- The later record of a request: its audit extends the earlier one, and a terminal record keeps
its status. -/
structure Later (d d' : DirectRecord) : Prop where
  audit : d.audit <+: d'.audit
  terminal : d.review.status.isTerminal = true → d'.review.status = d.review.status

theorem later_of_step {d d' : DirectRecord} (h : d' = d ∨ DirectStep False d d') : Later d d' := by
  rcases h with rfl | hstep
  · exact ⟨List.prefix_refl _, fun _ => rfl⟩
  · exact ⟨hstep.audit_prefix, fun hterminal => hstep.status_move.eq_of_terminal hterminal⟩

/-- INTERNAL: records of a request in two states of a run. -/
theorem run_later (events later : List Event) (id : String) (d : DirectRecord)
    (hd : (run E ownerUid Store.initial events).durable.direct id = some d) :
    ∃ d', (run E ownerUid Store.initial (events ++ later)).durable.direct id = some d' ∧
      Later d d' := by
  have hrelation := run_relation (step E ownerUid) (fun store => InPhase store.durable)
    (fun a b => ∀ d, a.durable.direct id = some d → ∃ d', b.durable.direct id = some d' ∧ Later d d')
    (fun _ d hd => ⟨d, hd, later_of_step (Or.inl rfl)⟩)
    (fun a b c hab hbc d hd => by
      obtain ⟨d₁, hd₁, h₁⟩ := hab d hd
      obtain ⟨d₂, hd₂, h₂⟩ := hbc d₁ hd₁
      refine ⟨d₂, hd₂, h₁.audit.trans h₂.audit, fun hterminal => ?_⟩
      have hsame := h₁.terminal hterminal
      rw [h₂.terminal (by rw [hsame]; exact hterminal), hsame])
    (fun store event => step_inPhase store event)
    (fun store event hphase d hd => by
      obtain ⟨d', hd', hchange⟩ := step_direct store event hphase id d hd
      exact ⟨d', hd', later_of_step hchange⟩)
    (run E ownerUid Store.initial events) later (run_inPhase events)
  unfold run at hd hrelation ⊢
  rw [List.foldl_append]
  exact hrelation d hd

end Events

/-- **The lifecycle of every request over every run.** After any operations, locks, revocations
and restarts, with any write interrupted at any point: identifiers name one request; at most one
call claimed it; a claimed request is neither pending, denied nor expired; the next event moves its
status by at most one edge of the lifecycle and only appends to its audit; a terminal request has no
approval, and keeps its status and its audit through every continuation of the run.
SRCLINE: provider_store.rs:222-268 -/
theorem request_lifecycle (E : Externals) (ownerUid : UInt32) (events : List Event) (id : String) :
    ((run E ownerUid Store.initial events).durable.requests.map (·.id)).Nodup ∧
    countMarked (step E ownerUid) (claimsExecution E ownerUid id) Store.initial events ≤ 1 ∧
    ∀ d, (run E ownerUid Store.initial events).durable.direct id = some d →
      (d.executionClaimed = true →
        d.review.status ≠ .pending ∧ d.review.status ≠ .denied ∧ d.review.status ≠ .expired) ∧
      (d.review.status.isTerminal = true → d.approval = none) ∧
      (∀ event, ∃ d',
        (run E ownerUid Store.initial (events ++ [event])).durable.direct id = some d' ∧
        StatusMove d.review.status d'.review.status ∧ d.audit <+: d'.audit) ∧
      (∀ later, ∃ d',
        (run E ownerUid Store.initial (events ++ later)).durable.direct id = some d' ∧
        d.audit <+: d'.audit ∧ (d.review.status.isTerminal = true →
          d'.review.status = d.review.status ∧ d'.approval = none)) := by
  have hphase := @run_inPhase E ownerUid events
  refine ⟨hphase.unique, ?_, ?_⟩
  · exact countMarked_le_one (step E ownerUid) (claimsExecution E ownerUid id)
      (fun store => InPhase store.durable) (Claimed id)
      (fun store event => step_inPhase store event)
      (fun store event hp hclaimed => ⟨step_claimed store event hp id hclaimed,
        claimsExecution_claimed store event id hclaimed⟩)
      (fun store event _ => claimed_of_claimsExecution store event id)
      Store.initial events initial_inPhase
  · intro d hd
    have hp := phase_of_direct hphase id d hd
    refine ⟨?_, hp.terminal, ?_, ?_⟩
    · intro hclaimed
      have hstatus := hp.claimed hclaimed
      refine ⟨?_, ?_, ?_⟩ <;>
      · intro heq
        simp [heq, DirectStatus.unclaimable] at hstatus
    · intro event
      obtain ⟨d', hd', hchange⟩ := step_direct _ event hphase id d hd
      unfold run at hd' ⊢
      rw [List.foldl_append]
      refine ⟨d', hd', ?_⟩
      rcases hchange with rfl | hstep
      · exact ⟨.stay _, List.prefix_refl _⟩
      · exact ⟨hstep.status_move, hstep.audit_prefix⟩
    · intro later
      obtain ⟨d', hd', hlater⟩ := run_later events later id d hd
      refine ⟨d', hd', hlater.audit, fun hterminal => ?_⟩
      have hsame := hlater.terminal hterminal
      exact ⟨hsame, (phase_of_direct (run_inPhase _) id d' hd').terminal (by rw [hsame]; exact hterminal)⟩

end VaultAccess.Analysis
