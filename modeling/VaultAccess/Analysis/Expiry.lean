import VaultAccess.Analysis.Replays

/-!
# What expires, and what does not

`expire_requests` of `src/access/application.rs` with `expire_direct` of
`src/access/provider.rs`, which filter the stored requests and the table of deadlines by one
reading of the clock, and the requests that the revocation of an agent expires.
-/

set_option autoImplicit false

namespace VaultAccess.Analysis.Expiry

open VaultAccess.Library VaultAccess.Model VaultAccess.Model.Application VaultAccess.Analysis

/-! ## Requests -/

/-- The request is pending or approved and was not claimed. -/
def Waits (r : RequestRecord) : Prop :=
  ∃ d, r.direct = some d ∧ d.executionClaimed = false ∧
    (d.review.status = .pending ∨ d.review.status = .approved)

/-- The request has no deadline, or its deadline is not ahead. -/
def Due (now : ℕ) (deadlines : String → Option ℕ) (r : RequestRecord) : Prop :=
  ∀ deadline, deadlines r.id = some deadline → deadline ≤ now

/-- The request is from the agent. -/
def OwnedBy (id : String) (r : RequestRecord) : Prop :=
  ∃ d owner, r.direct = some d ∧ d.agentOwner = some owner ∧ owner.bindingId = id

/-- The request becomes expired, with one event that records the decision. -/
def Expires (decision : DecisionOutcome) (r r' : RequestRecord) : Prop :=
  ∃ d wall, r.direct = some d ∧ r' = ⟨r.id, .invalidated, some (d.advance .expired decision wall)⟩

/-- A request of the kind expires, any other stays as it is. -/
def Swept (kind : RequestRecord → Prop) (decision : DecisionOutcome) (r r' : RequestRecord) : Prop :=
  (kind r ∧ Expires decision r r') ∨ (¬ kind r ∧ r' = r)

/-- The two statuses of the request agree. -/
def Agrees (r : RequestRecord) : Prop :=
  ∀ d, r.direct = some d → r.status = d.review.status.lifecycle

/-- INTERNAL: a request that expired does not wait. -/
theorem not_waits_of_expires {decision : DecisionOutcome} {r r' : RequestRecord}
    (h : Expires decision r r') : ¬ Waits r' := by
  obtain ⟨d, wall, -, rfl⟩ := h
  rintro ⟨d', hd', -, hstatus⟩
  simp only [Option.some.injEq] at hd'
  rw [← hd'] at hstatus
  simp [DirectRecord.advance] at hstatus

theorem Swept.replayDigest {kind : RequestRecord → Prop} {decision : DecisionOutcome}
    {r r' : RequestRecord} (h : Swept kind decision r r') : r'.replayDigest = r.replayDigest := by
  rcases h with ⟨-, d, wall, hd, rfl⟩ | ⟨-, rfl⟩
  · simp [RequestRecord.replayDigest, hd, DirectRecord.advance]
  · rfl

/-- INTERNAL: a request that waits after the sweep was passed over. -/
theorem Swept.of_waits {kind : RequestRecord → Prop} {decision : DecisionOutcome}
    {r r' : RequestRecord} (h : Swept kind decision r r') (hwaits : Waits r') :
    r' = r ∧ ¬ kind r := by
  rcases h with ⟨-, hexpires⟩ | ⟨hkind, rfl⟩
  · exact absurd hwaits (not_waits_of_expires hexpires)
  · exact ⟨rfl, hkind⟩

theorem lifecycle_pending_iff (status : DirectStatus) : status.lifecycle = .pending ↔ status = .pending := by
  cases status <;> simp [DirectStatus.lifecycle]

theorem lifecycle_approved_iff (status : DirectStatus) :
    status.lifecycle = .approved ↔ status = .approved := by
  cases status <;> simp [DirectStatus.lifecycle]

/-- INTERNAL: what expiry is about. -/
theorem expires_iff {now : ℕ} {deadlines : String → Option ℕ} {r : RequestRecord} (hagrees : Agrees r) :
    expires now deadlines r = true ↔ Waits r ∧ Due now deadlines r := by
  unfold expires Waits Due
  cases hd : r.direct with
  | none => simp
  | some d =>
    have hstatus := hagrees d hd
    simp only [Option.any_some, hstatus, lifecycle_pending_iff, lifecycle_approved_iff, Bool.and_eq_true,
      Bool.not_eq_true', Bool.or_eq_true, decide_eq_true_eq, Option.all_eq_true, Option.some.injEq,
      exists_eq_left']

/-- INTERNAL: a request that waits can expire. -/
theorem transition_of_waits {r : RequestRecord} (h : Waits r) (decision : DecisionOutcome) (wall : ℕ) :
    ∃ r', r.transition .expired decision wall = .ok r' ∧ Expires decision r r' := by
  obtain ⟨d, hd, -, hstatus⟩ := h
  have hlegal : d.legal .expired = true := by
    rcases hstatus with hstatus | hstatus
    · simp [DirectRecord.legal, hstatus]
    · simp [DirectRecord.legal, hstatus]
  refine ⟨⟨r.id, .invalidated, some (d.advance .expired decision wall)⟩, ?_, d, wall, hd, rfl⟩
  simp only [RequestRecord.transition, hd, hlegal, if_true]
  rfl

/-! ## Sweeps -/

/-- INTERNAL: **an update that succeeds on every request, and what it does to each.** -/
theorem updateRequests_exact {R : RequestRecord → RequestRecord → Prop}
    (f : ℕ → RequestRecord → Except ProviderDiagnostic RequestRecord) (l : List RequestRecord)
    (h : ∀ r ∈ l, ∀ i, ∃ r', f i r = .ok r' ∧ R r r') :
    ∃ l', updateRequests f 0 l = .ok l' ∧ List.Forall₂ R l l' := by
  obtain ⟨l', hl'⟩ := updateRequests_ok f 0 l fun r hr i => by
    obtain ⟨r', hr', -⟩ := h r hr i
    exact ⟨r', hr'⟩
  refine ⟨l', hl', ?_⟩
  apply forall₂_imp_mem (forall₂_updateRequests f 0 l l' hl')
  rintro r hr r' ⟨i, hi⟩
  obtain ⟨r₁, hr₁, hR⟩ := h r hr i
  rw [hi, Except.ok.injEq] at hr₁
  rw [hr₁]
  exact hR

/-- INTERNAL: what expiry does to a request. -/
theorem expireRequest_exact {env : Env} {i : ℕ} {r : RequestRecord} (now : ℕ) (deadlines : String → Option ℕ)
    (hagrees : Agrees r) (hwall : ∃ wall, env.wall i = some wall) :
    ∃ r', expireRequest env now deadlines i r = .ok r' ∧
      Swept (fun r => Waits r ∧ Due now deadlines r) .expired r r' := by
  unfold expireRequest
  by_cases h : expires now deadlines r = true
  · have hkind := (expires_iff hagrees).mp h
    obtain ⟨wall, hwall⟩ := hwall
    obtain ⟨r', hr', hexpires⟩ := transition_of_waits hkind.1 .expired wall
    rw [if_pos h, hwall]
    exact ⟨r', hr', Or.inl ⟨hkind, hexpires⟩⟩
  · rw [if_neg h]
    exact ⟨r, rfl, Or.inr ⟨fun hkind => h ((expires_iff hagrees).mpr hkind), rfl⟩⟩

/-- INTERNAL: what the revocation of an agent does to a request. -/
theorem revokeRequest_exact (id : String) (now i : ℕ) (r : RequestRecord) :
    ∃ r', revokeRequest id now i r = .ok r' ∧
      Swept (fun r => Waits r ∧ OwnedBy id r) .invalidated r r' := by
  unfold revokeRequest
  cases hd : r.direct with
  | none =>
    refine ⟨r, rfl, Or.inr ⟨?_, rfl⟩⟩
    rintro ⟨⟨d, hd', -⟩, -⟩
    rw [hd] at hd'
    simp at hd'
  | some d =>
    simp only
    split_ifs with h
    · simp only [Bool.and_eq_true, Bool.not_eq_true', Bool.or_eq_true, decide_eq_true_eq,
        Option.any_eq_true] at h
      obtain ⟨⟨hclaimed, owner, howner, hid⟩, hstatus⟩ := h
      have hwaits : Waits r := ⟨d, hd, hclaimed, hstatus⟩
      obtain ⟨r', hr', hexpires⟩ := transition_of_waits hwaits .invalidated now
      exact ⟨r', hr', Or.inl ⟨⟨hwaits, d, owner, hd, howner, hid⟩, hexpires⟩⟩
    · refine ⟨r, rfl, Or.inr ⟨?_, rfl⟩⟩
      rintro ⟨⟨d₁, hd₁, hclaimed, hstatus⟩, d₂, owner, hd₂, howner, hid⟩
      rw [hd, Option.some.injEq] at hd₁ hd₂
      subst hd₁ hd₂
      apply h
      simp [hclaimed, hstatus, howner, hid]

/-- INTERNAL: no request expires when none is due. -/
theorem swept_eq {kind : RequestRecord → Prop} {decision : DecisionOutcome}
    {l l' : List RequestRecord} (h : List.Forall₂ (Swept kind decision) l l') (hnone : ∀ r ∈ l, ¬ kind r) :
    l' = l := by
  induction h with
  | nil => rfl
  | @cons r r' l l' hr _ ih =>
    rcases hr with ⟨hkind, -⟩ | ⟨-, rfl⟩
    · exact absurd hkind (hnone r List.mem_cons_self)
    · rw [ih fun q hq => hnone q (List.mem_cons_of_mem _ hq)]

/-! ## Calls that succeed -/

section Calls

variable (E : Externals) (ownerUid : UInt32)

/-- The state is read, the clock can be read, and what is handed to the store is written. -/
structure Succeeds (store : Store) (op : Op) (input : Input) (s : ProviderState) : Prop where
  readable : input.unreadable = false
  reads : store.readState E ownerUid input.env.disk = .ok s
  wall : ∀ i, ∃ wall, input.env.wall i = some wall
  accepts : ∀ s', op.handed E ownerUid input.env s = some s' →
    s'.validateForOwner E input.env.disk ownerUid = true
  committed : input.outcome = .committed

variable {E ownerUid} {store : Store} {input : Input} {s : ProviderState}

/-- INTERNAL: what is read is the durable state, up to policies, and valid. -/
theorem readState_ok {disk : Disk} (h : store.readState E ownerUid disk = .ok s) :
    store.poisoned = false ∧ s = { store.durable with operations := s.operations } ∧
      s.validateForOwner E disk ownerUid = true := by
  unfold Store.readState at h
  split_ifs at h with hpoisoned
  split at h
  · simp at h
  · rename_i s₁ hdecoded
    split_ifs at h with hvalid
    rw [Except.ok.injEq] at h
    rw [← h]
    exact ⟨by simpa using hpoisoned, eq_of_tryFrom E _ _ _ hdecoded, hvalid⟩

/-- INTERNAL: the statuses of a valid state agree. -/
theorem agrees_of_valid {disk : Disk} (h : s.validateForOwner E disk ownerUid = true) :
    ∀ r ∈ s.requests, Agrees r := by
  simp only [ProviderState.validateForOwner, Bool.and_eq_true, List.all_eq_true] at h
  intro r hr d hd
  have hrecord := h.2 r hr
  simp only [RequestRecord.validate, hd, Bool.and_eq_true, consistentStatus, decide_eq_true_eq] at hrecord
  exact hrecord.1.1.2

theorem requests_of_reads {disk : Disk} (h : store.readState E ownerUid disk = .ok s) :
    s.requests = store.durable.requests := by
  rw [(readState_ok h).2.1]

/-- INTERNAL: a call that hands a state over stores it. -/
theorem Succeeds.call_some {op : Op} {value : op.Value} {s' : ProviderState}
    (h : Succeeds E ownerUid store op input s)
    (heval : op.eval E ownerUid input.env s = .ok ⟨value, some s'⟩) :
    store.call E ownerUid op input.env input.outcome input.unreadable =
      ({ store with durable := s' }, .ok value) := by
  have hhanded : op.handed E ownerUid input.env s = some s' := by
    rw [handed_eq_eval, heval]
    rfl
  have hwrite : store.writeState E ownerUid input.env.disk s' input.outcome =
      ({ store with durable := s' }, .ok ()) := by
    simp only [Store.writeState, (readState_ok h.reads).1, h.accepts s' hhanded, h.committed,
      Bool.false_eq_true, if_false, Bool.not_true]
  simp only [Store.call, h.readable, Bool.false_eq_true, if_false, h.reads, heval, hwrite]

theorem Succeeds.call_none {op : Op} {value : op.Value} (h : Succeeds E ownerUid store op input s)
    (heval : op.eval E ownerUid input.env s = .ok ⟨value, none⟩) :
    store.call E ownerUid op input.env input.outcome input.unreadable = (store, .ok value) := by
  simp only [Store.call, h.readable, Bool.false_eq_true, if_false, h.reads, heval]

end Calls


/-! ## Expiry -/

section Expiry

variable {E : Externals} {ownerUid : UInt32}

/-- INTERNAL: **expiry of a state, as an operation.** -/
theorem expireDirect_exact {env : Env} {s : ProviderState} (now : ℕ) (deadlines : String → Option ℕ)
    (hagrees : ∀ r ∈ s.requests, Agrees r) (hwall : ∀ i, ∃ wall, env.wall i = some wall) :
    ∃ requests, expireDirect env s now deadlines = .ok ⟨(),
        if s.requests.any (expires now deadlines) then some { s with requests := requests } else none⟩ ∧
      List.Forall₂ (Swept (fun r => Waits r ∧ Due now deadlines r) .expired) s.requests requests := by
  obtain ⟨requests, hrequests, hswept⟩ := updateRequests_exact
    (R := Swept (fun r => Waits r ∧ Due now deadlines r) .expired) (expireRequest env now deadlines)
    s.requests fun r hr i => expireRequest_exact _ _ (hagrees r hr) (hwall i)
  refine ⟨requests, ?_, hswept⟩
  simp only [expireDirect, hrequests, bind, Except.bind, pure, Except.pure]

/-- INTERNAL: what expiry did to a request, if it succeeded. -/
theorem expireRequest_ok {env : Env} {now i : ℕ} {deadlines : String → Option ℕ} {r r' : RequestRecord}
    (hagrees : Agrees r) (h : expireRequest env now deadlines i r = .ok r') :
    Swept (fun r => Waits r ∧ Due now deadlines r) .expired r r' := by
  by_cases hexpires : expires now deadlines r = true
  · cases hwall : env.wall i with
    | none => simp [expireRequest, hexpires, hwall] at h
    | some wall =>
      obtain ⟨r₁, hr₁, hswept⟩ := expireRequest_exact now deadlines hagrees
        ⟨wall, hwall⟩
      rw [h, Except.ok.injEq] at hr₁
      rw [hr₁]
      exact hswept
  · simp only [expireRequest, hexpires, Bool.false_eq_true, if_false, Except.ok.injEq] at h
    exact Or.inr ⟨fun hkind => hexpires ((expires_iff hagrees).mpr hkind), h.symm⟩

/-- INTERNAL: a call that answers found a valid state. -/
theorem agrees_of_call {store : Store} {op : Op} {env : Env} {w : WriteOutcome} {unreadable : Bool}
    {value : op.Value} (h : (store.call E ownerUid op env w unreadable).2 = .ok value) :
    ∀ r ∈ store.durable.requests, Agrees r := by
  unfold Store.call at h
  cases unreadable with
  | true => simp at h
  | false =>
    cases hread : store.readState E ownerUid env.disk with
    | error e => simp [hread] at h
    | ok s =>
      rw [← requests_of_reads hread]
      exact agrees_of_valid (readState_ok hread).2.2

theorem ahead_of_not_due {now : ℕ} {deadlines : String → Option ℕ} {r : RequestRecord}
    (h : ¬ Due now deadlines r) : ∃ deadline, deadlines r.id = some deadline ∧ now < deadline := by
  unfold Due at h
  push Not at h
  exact h

/-- INTERNAL: **after an expiry that succeeds, what waits has a deadline ahead.** -/
theorem ahead_of_expireDirect {store : Store} {now : ℕ} {deadlines : String → Option ℕ} {env : Env}
    {w : WriteOutcome} {unreadable : Bool}
    (h : (store.call E ownerUid (.expireDirect now deadlines) env w unreadable).2 = .ok ()) :
    ∀ r ∈ (store.call E ownerUid (.expireDirect now deadlines) env w unreadable).1.durable.requests,
      Waits r → ∃ deadline, deadlines r.id = some deadline ∧ now < deadline := by
  have hagrees := agrees_of_call h
  obtain ⟨s, hcall⟩ := call_ok store (.expireDirect now deadlines) env w unreadable () h
  obtain ⟨handed, heval, -, hnone, hsome⟩ := hcall.eval
  have hrequests : s.requests = store.durable.requests := by rw [hcall.reads]
  rw [← hrequests] at hagrees
  simp only [Op.eval, expireDirect, bind, Except.bind, pure, Except.pure] at heval
  split at heval
  · simp at heval
  · rename_i requests hupdate
    rw [Except.ok.injEq] at heval
    have hswept : List.Forall₂ (Swept (fun r => Waits r ∧ Due now deadlines r) .expired) s.requests
        requests := by
      apply forall₂_imp_mem (forall₂_updateRequests _ 0 s.requests requests hupdate)
      rintro r hr r' ⟨i, hi⟩
      exact expireRequest_ok (hagrees r hr) hi
    by_cases hany : s.requests.any (expires now deadlines) = true
    · rw [if_pos hany] at heval
      obtain ⟨hstore, -⟩ := hsome { s with requests := requests } (by rw [← heval])
      rw [hstore]
      intro r' hr' hwaits
      obtain ⟨r, -, hr⟩ := exists_left_of_forall₂ hswept r' hr'
      obtain ⟨rfl, hkind⟩ := hr.of_waits hwaits
      exact ahead_of_not_due fun hdue => hkind ⟨hwaits, hdue⟩
    · rw [if_neg hany] at heval
      rw [hnone (by rw [← heval]), ← hrequests]
      intro r hr hwaits
      apply ahead_of_not_due
      intro hdue
      exact hany (List.any_eq_true.mpr ⟨r, hr, (expires_iff (hagrees r hr)).mpr ⟨hwaits, hdue⟩⟩)

/-- The memory after expiry. `s` is the state that was read, which the durable state is up to
policies. -/
structure After (s : ProviderState) (m m' : Shared) : Prop where
  requests : List.Forall₂
    (Swept (fun r => Waits r ∧ Due m.clock m.authority.requestDeadlines r) .expired)
    m.authority.store.durable.requests m'.authority.store.durable.requests
  deadlines : ∀ id deadline, m'.authority.requestDeadlines id = some deadline ↔
    m.authority.requestDeadlines id = some deadline ∧ m.clock < deadline
  replayed : m'.authority.store.durable.replayed = m.authority.store.durable.replayed
  operations : m'.authority.store.durable.operations = m.authority.store.durable.operations ∨
    m'.authority.store.durable.operations = s.operations
  others : m' = { m with
    authority := { m.authority with
      store := { m.authority.store with
        durable := { m.authority.store.durable with
          operations := m'.authority.store.durable.operations
          requests := m'.authority.store.durable.requests } }
      requestDeadlines := m'.authority.requestDeadlines }
    log := m'.log }

/-- INTERNAL: one call of `expire_requests`, action by action. -/
theorem run_expireRequests {m : Shared} {store : Store} {i₂ : Input} (t : ℕ) (i₀ i₁ i₃ : Input)
    (h : m.authority.store.call E ownerUid (.expireDirect m.clock m.authority.requestDeadlines) i₂.env
      i₂.outcome i₂.unreadable = (store, .ok ())) :
    ∃ log, expireRequests.run.runFor (performAct E ownerUid t) [i₀, i₁, i₂, i₃] m =
      (some (.ok ()), { m with
        authority := { m.authority with
          store := store
          requestDeadlines := fun id => (m.authority.requestDeadlines id).filter (m.clock < ·) }
        log := log }) := by
  unfold expireRequests
  simp only [act, ExceptT.run_bind, ExceptT.run_lift, Prog.perform, bind_map_left, Prog.act_bind,
    Prog.done_bind, Prog.runFor, performAct, performProvider, Shared.note, h, Except.isOk, Except.toBool,
    if_true]
  simp only [Op.message, Option.toList_none, List.append_nil]
  exact ⟨_, rfl⟩

/-- INTERNAL: a marker is used after the sweep if it was before. -/
theorem replayed_of_swept {kind : RequestRecord → Prop} {decision : DecisionOutcome}
    {s s' : ProviderState} (h : List.Forall₂ (Swept kind decision) s.requests s'.requests)
    (hmarkers : s'.queryReplayMarkers = s.queryReplayMarkers) : s'.replayed = s.replayed := by
  have hany : ∀ (r : RequestRecord) (marker : String),
      (r.direct.any fun d => decide (d.replayDigest = some marker)) = decide (r.replayDigest = some marker) := by
    intro r marker
    cases hd : r.direct with
    | none => simp [RequestRecord.replayDigest, hd]
    | some d => simp [RequestRecord.replayDigest, hd]
  funext marker
  simp only [ProviderState.replayed, hmarkers, hany]
  congr 1
  revert h
  generalize s.requests = l
  generalize s'.requests = l'
  intro h
  induction h with
  | nil => rfl
  | cons hr _ ih => rw [List.any_cons, List.any_cons, ih, hr.replayDigest]

/-- INTERNAL: **expiry, when the store and the clock succeed.** -/
theorem expireRequests_exact {m : Shared} {s : ProviderState} {i₂ : Input} (t : ℕ) (i₀ i₁ i₃ : Input)
    (h : Succeeds E ownerUid m.authority.store (.expireDirect m.clock m.authority.requestDeadlines) i₂ s) :
    ∃ m', expireRequests.run.runFor (performAct E ownerUid t) [i₀, i₁, i₂, i₃] m = (some (.ok ()), m') ∧
      After s m m' := by
  obtain ⟨-, hs, hvalid⟩ := readState_ok h.reads
  have hrequests : s.requests = m.authority.store.durable.requests := requests_of_reads h.reads
  have hagrees := agrees_of_valid hvalid
  have hfilter : ∀ id deadline, (m.authority.requestDeadlines id).filter (m.clock < ·) = some deadline ↔
      m.authority.requestDeadlines id = some deadline ∧ m.clock < deadline := by
    intro id deadline
    rw [Option.filter_eq_some_iff, decide_eq_true_eq]
  obtain ⟨requests, heval, hswept⟩ :=
    expireDirect_exact m.clock m.authority.requestDeadlines hagrees h.wall
  by_cases hany : s.requests.any (expires m.clock m.authority.requestDeadlines) = true
  · rw [if_pos hany] at heval
    obtain ⟨log, hrun⟩ := run_expireRequests t i₀ i₁ i₃ (h.call_some heval)
    rw [hrequests] at hswept
    refine ⟨_, hrun, hswept, hfilter, ?_, Or.inr rfl, ?_⟩
    · apply replayed_of_swept hswept
      rw [hs]
    · rw [hs]
  · rw [if_neg hany] at heval
    obtain ⟨log, hrun⟩ := run_expireRequests t i₀ i₁ i₃ (h.call_none heval)
    have hsame : requests = s.requests := by
      apply swept_eq hswept
      intro r hr hkind
      exact hany (List.any_eq_true.mpr ⟨r, hr, (expires_iff (hagrees r hr)).mpr hkind⟩)
    rw [hsame, hrequests] at hswept
    exact ⟨_, hrun, hswept, hfilter, rfl, Or.inl rfl, rfl⟩

/-- INTERNAL: nothing is due after expiry. -/
theorem After.not_due {s : ProviderState} {m m' : Shared} (h : After s m m') :
    ∀ r' ∈ m'.authority.store.durable.requests,
      ¬ (Waits r' ∧ Due m'.clock m'.authority.requestDeadlines r') := by
  rintro r' hr' ⟨hwaits, hdue⟩
  obtain ⟨r, -, hswept⟩ := exists_left_of_forall₂ h.requests r' hr'
  obtain ⟨rfl, hkind⟩ := hswept.of_waits hwaits
  have hclock : m'.clock = m.clock := by rw [h.others]
  apply hkind
  refine ⟨hwaits, fun deadline hdeadline => ?_⟩
  by_contra hahead
  have hkept := (h.deadlines r'.id deadline).mpr ⟨hdeadline, Nat.lt_of_not_le hahead⟩
  have hpassed := hdue deadline hkept
  rw [hclock] at hpassed
  exact hahead hpassed

/-- INTERNAL: **a second expiry at the same reading of the clock changes nothing.** -/
theorem expireRequests_again {t : ℕ} {s s' : ProviderState} {m m' : Shared} {i₀ i₁ i₂ i₃ : Input}
    (hafter : After s m m')
    (h : Succeeds E ownerUid m'.authority.store (.expireDirect m'.clock m'.authority.requestDeadlines) i₂ s') :
    ∃ log, expireRequests.run.runFor (performAct E ownerUid t) [i₀, i₁, i₂, i₃] m' =
      (some (.ok ()), { m' with log := log }) := by
  have hagrees := agrees_of_valid (readState_ok h.reads).2.2
  have hrequests := requests_of_reads h.reads
  obtain ⟨requests, heval, -⟩ :=
    expireDirect_exact m'.clock m'.authority.requestDeadlines hagrees h.wall
  have hnone : ¬ s'.requests.any (expires m'.clock m'.authority.requestDeadlines) = true := by
    intro hany
    obtain ⟨r, hr, hexpires⟩ := List.any_eq_true.mp hany
    have hkind := (expires_iff (hagrees r hr)).mp hexpires
    rw [hrequests] at hr
    exact hafter.not_due r hr hkind
  rw [if_neg hnone] at heval
  obtain ⟨log, hrun⟩ := run_expireRequests t i₀ i₁ i₃ (h.call_none heval)
  have hclock : m'.clock = m.clock := by rw [hafter.others]
  have htable : (fun id => (m'.authority.requestDeadlines id).filter (m'.clock < ·)) =
      m'.authority.requestDeadlines := by
    funext id
    cases hdeadline : m'.authority.requestDeadlines id with
    | none => rfl
    | some deadline =>
      have hahead := ((hafter.deadlines id deadline).mp hdeadline).2
      rw [← hclock] at hahead
      simp [hahead]
  rw [htable] at hrun
  exact ⟨log, hrun⟩

end Expiry

/-! ## Revocation -/

section Revocation

variable {E : Externals} {ownerUid : UInt32}

variable (ownerUid) in
/-- The state after the revocation of an agent that was enabled. -/
structure Revoked (id : String) (now : ℕ) (binding : AgentBinding) (s s' : ProviderState) : Prop where
  requests : List.Forall₂ (Swept (fun r => Waits r ∧ OwnedBy id r) .invalidated) s.requests s'.requests
  others : s' = { s with
    pairings := revokeFirst id s.pairings
    agentAudit := s.agentAudit ++
      [{ binding with status := .revoked : AgentBinding }.audit ownerUid now .revoked]
    requests := s'.requests }

variable (ownerUid) in
/-- INTERNAL: **the revocation of an enabled agent.** -/
theorem revokeAgent_enabled {s : ProviderState} {id : String} {binding : AgentBinding} (now : ℕ)
    (hfind : s.pairings.find? (·.id = id) = some binding) (hstatus : binding.status = .enabled) :
    ∃ s', revokeAgent ownerUid s ownerUid id now =
        .ok ⟨{ binding with status := .revoked : AgentBinding }.view, some s'⟩ ∧
      Revoked ownerUid id now binding s s' := by
  obtain ⟨requests, hrequests, hswept⟩ := updateRequests_exact
    (R := Swept (fun r => Waits r ∧ OwnedBy id r) .invalidated) (revokeRequest id now) s.requests
    fun r _ i => revokeRequest_exact id now i r
  refine ⟨{ s with
      pairings := revokeFirst id s.pairings
      agentAudit := s.agentAudit ++
        [{ binding with status := .revoked : AgentBinding }.audit ownerUid now .revoked]
      requests := requests }, ?_, hswept, rfl⟩
  simp only [revokeAgent, checkAdministrator, hfind, hstatus, hrequests, Except.mapError, bind, Except.bind,
    pure, Except.pure, ne_eq, not_true_eq_false, if_false, if_true]

variable (ownerUid) in
theorem revokeAgent_revoked {s : ProviderState} {id : String} {binding : AgentBinding} (now : ℕ)
    (hfind : s.pairings.find? (·.id = id) = some binding) (hstatus : binding.status = .revoked) :
    revokeAgent ownerUid s ownerUid id now = .ok ⟨binding.view, none⟩ := by
  simp [revokeAgent, checkAdministrator, hfind, hstatus, bind, Except.bind, pure, Except.pure]

end Revocation

/-! ## No request of a revoked agent waits -/

/-- Whatever the operation hands to the store is of the kind. -/
def Hands {ε α : Type} (kind : ProviderState → Prop) (result : Except ε (Handed α)) : Prop :=
  ∀ handed s', result = .ok handed → handed.state = some s' → kind s'

section Hands

variable {ε ε' α β : Type} {kind : ProviderState → Prop}

theorem hands_error (e : ε) : Hands kind (.error e : Except ε (Handed α)) := by
  intro handed s' h
  simp at h

theorem hands_none (value : α) : Hands kind (.ok ⟨value, none⟩ : Except ε (Handed α)) := by
  intro handed s' h hs'
  rw [Except.ok.injEq] at h
  rw [← h] at hs'
  simp at hs'

/-- INTERNAL: an answer with a state. -/
theorem hands_some (value : α) (s : ProviderState) (hs : kind s) :
    Hands kind (.ok ⟨value, some s⟩ : Except ε (Handed α)) := by
  intro handed s' h hs'
  rw [Except.ok.injEq] at h
  rw [← h, Option.some.injEq] at hs'
  rw [← hs']
  exact hs

/-- INTERNAL: a step before. -/
theorem hands_bind (x : Except ε β) (f : β → Except ε (Handed α)) (h : ∀ b, Hands kind (f b)) :
    Hands kind (x >>= f) := by
  intro handed s' hx
  cases x with
  | error e => simp [bind, Except.bind] at hx
  | ok b => exact h b handed s' hx

theorem hands_mapError (f : ε → ε') (x : Except ε (Handed α)) (h : Hands kind x) :
    Hands kind (x.mapError f) := by
  intro handed s' hx
  exact h handed s' (mapError_eq_ok f x handed hx)

end Hands

section Served

variable {E : Externals} {ownerUid : UInt32}

/-- Every request that waits is the human's, or is from an agent that is enabled. -/
def Served (s : ProviderState) : Prop :=
  ∀ r ∈ s.requests, Waits r → ∀ id, OwnedBy id r → ∃ b ∈ s.pairings, b.id = id ∧ b.status = .enabled

/-- INTERNAL: a new request. -/
theorem hands_createOwned (env : Env) (s : ProviderState) (uid : UInt32) (agentOwner : Option AgentOwner)
    (replayDigest : Option String) (input : DirectSubmission) (now expires : ℕ) (authorized : Bool) :
    Hands (fun s' => s'.pairings = s.pairings)
      (createOwned E env s uid agentOwner replayDigest input now expires authorized) := by
  unfold createOwned
  repeat' first
    | exact hands_error _
    | exact hands_some _ _ rfl
    | refine hands_bind _ _ fun _ => ?_
    | split

/-- INTERNAL: pairing keeps the requests and the bindings. -/
theorem hands_pairAgent (env : Env) (s : ProviderState) (human : UInt32) (input : AgentPairing) (now : ℕ) :
    Hands (fun s' => s'.requests = s.requests ∧ s.pairings ⊆ s'.pairings)
      (Model.pairAgent E ownerUid env s human input now) := by
  unfold Model.pairAgent
  repeat' first
    | exact hands_error _
    | exact hands_some _ _ ⟨rfl, List.subset_append_left _ _⟩
    | refine hands_bind _ _ fun _ => ?_
    | split

/-- INTERNAL: **only pairing and revocation change bindings.** -/
theorem hands_pairings (env : Env) (s : ProviderState) (op : Op)
    (hpair : ∀ human input now, op ≠ .pairAgent human input now)
    (hrevoke : ∀ human id now, op ≠ .revokeAgent human id now) :
    Hands (fun s' => s'.pairings = s.pairings) (op.eval E ownerUid env s) := by
  cases op with
  | pairAgent human input now => exact absurd rfl (hpair human input now)
  | revokeAgent human id now => exact absurd rfl (hrevoke human id now)
  | createDirect owner input now expires authorized =>
    exact hands_createOwned env s owner none none input now expires authorized
  | createSigned owner input now expires authorized =>
    simp only [Op.eval, createSigned]
    repeat' first
      | exact hands_error _
      | exact hands_mapError _ _ (hands_createOwned _ _ _ _ _ _ _ _ _)
      | refine hands_bind _ _ fun _ => ?_
      | split
  | _ =>
    -- every other operation ends in a failure, or in the state it read with one other field changed
    simp only [Op.eval, expireDirect, decideDirect, Model.claimExecution, executionStarted,
      finishExecution, cancelUnclaimedExecution, failDirectLaunch, beginWrite, recordWrite, reconcileWrite,
      consumeStatusQuery, provisionOperation, registerImage, Model.lock, invalidate]
    repeat' first
      | exact hands_error _
      | exact hands_none _
      | exact hands_some _ _ rfl
      | refine hands_mapError _ _ ?_
      | refine hands_bind _ _ fun _ => ?_
      | split

/-- INTERNAL: recovery keeps bindings. -/
theorem hands_recover (env : Env) (s : ProviderState) :
    Hands (fun s' => s'.pairings = s.pairings) (recover env s) := by
  unfold recover invalidate
  repeat' first
    | exact hands_error _
    | exact hands_some _ _ rfl
    | refine hands_bind _ _ fun _ => ?_
    | split

/-- INTERNAL: **no step of a record makes it wait.** -/
theorem waits_of_step {legit : Prop} {r r' : RequestRecord} (h : RequestStep legit r r')
    (hwaits : Waits r') : Waits r ∧ ∀ id, OwnedBy id r' → OwnedBy id r := by
  cases h with
  | same => exact ⟨hwaits, fun _ howned => howned⟩
  | change d d' hd hstep =>
    obtain ⟨d₁, hd₁, hclaimed, hstatus⟩ := hwaits
    simp only [Option.some.injEq] at hd₁
    subst hd₁
    refine ⟨⟨d, hd, ?_⟩, ?_⟩
    · cases hstep with
      | decide approve method now hpending =>
        rw [decided_claimed] at hclaimed
        exact ⟨hclaimed, Or.inl hpending⟩
      | expire decision now => simp [DirectRecord.advance] at hstatus
      | claim => simp at hclaimed
      | start decision now => simp [DirectRecord.advance] at hstatus
      | complete exitCode decision now => simp [DirectRecord.advance] at hstatus
      | fail reason decision now => simp [DirectRecord.advance] at hstatus
      | begin hc hrunning => simp [hrunning] at hstatus
      | record receipt item status hreceipt hitem hvalid => exact ⟨hclaimed, hstatus⟩
      | reconcile receipt itemId now hterminal =>
        have hsame : d.review.status = .pending ∨ d.review.status = .approved := hstatus
        rcases hsame with hsame | hsame
        · simp [hsame, DirectStatus.isTerminal] at hterminal
        · simp [hsame, DirectStatus.isTerminal] at hterminal
    · rintro id ⟨d₂, owner, hd₂, howner, hid⟩
      simp only [Option.some.injEq] at hd₂
      subst hd₂
      have hcore : d'.agentOwner = d.agentOwner := congrArg (·.agentOwner) hstep.core_eq
      rw [hcore] at howner
      exact ⟨d, owner, hd, howner, hid⟩

/-- INTERNAL: the requests of a state whose bindings stay. -/
theorem Served.requests {legit : Prop} {s s' : ProviderState} (h : Served s)
    (hrequests : List.Forall₂ (RequestStep legit) s.requests s'.requests)
    (hpairings : s'.pairings = s.pairings) : Served s' := by
  intro r' hr' hwaits id howned
  obtain ⟨r, hr, hstep⟩ := exists_left_of_forall₂ hrequests r' hr'
  obtain ⟨hwaited, howner⟩ := waits_of_step hstep hwaits
  rw [hpairings]
  exact h r hr hwaited id (howner id howned)

/-- INTERNAL: one change of a state whose bindings stay. -/
theorem Served.step {env : Env} {legit : Prop} {s s' : ProviderState} (h : Served s)
    (hstep : StateStep E ownerUid env legit s s') (hpairings : s'.pairings = s.pairings) : Served s' := by
  cases hstep with
  | create uid agentOwner replayDigest policy values args now expires random hcurrent =>
    intro r hr hwaits id howned
    rcases List.mem_append.mp hr with hr | hr
    · exact h r hr hwaits id howned
    · -- a new request is from an agent that is enabled
      obtain ⟨d, owner, hd, howner, hid⟩ := howned
      rw [List.mem_singleton.mp hr, newRequest, Option.some.injEq] at hd
      have hagent : agentOwner = some owner := by
        rw [← howner, ← hd]
        rfl
      simp only [agentCurrent, hagent, Option.all_some, List.any_eq_true, Bool.and_eq_true,
        AgentBinding.enabledCurrent, decide_eq_true_eq] at hcurrent
      obtain ⟨b, hb, hmatches, henabled⟩ := hcurrent
      simp only [AgentOwner.matches, decide_eq_true_eq] at hmatches
      refine ⟨b, hb, ?_, henabled⟩
      rw [← hid, hmatches]
      rfl
  | updateOne p r r' hfind hrequest =>
    exact h.requests (forall₂_setFirst p _ (fun _ => .same) s.requests r r' hfind hrequest) rfl
  | updateAll requests hrequests => exact h.requests (hrequests.imp fun _ _ h => h.1) rfl
  | invalidate requests hrequests => exact h.requests (hrequests.imp fun _ _ h => h.1) rfl
  | revoke id binding now requests hfind henabled hrequests =>
    exact h.requests (hrequests.imp fun _ _ h => h.1) hpairings
  | pair input random binding now =>
    intro r hr hwaits id howned
    obtain ⟨b, hb, hkind⟩ := h r hr hwaits id howned
    exact ⟨b, List.mem_append_left _ hb, hkind⟩
  | query | provision | register => exact h

/-- INTERNAL: the other bindings stay. -/
theorem mem_revokeFirst_of_ne (id : String) (l : List AgentBinding) (b : AgentBinding) (hb : b ∈ l)
    (hid : b.id ≠ id) : b ∈ revokeFirst id l := by
  induction l with
  | nil => simp at hb
  | cons c l ih =>
    unfold revokeFirst
    rcases List.mem_cons.mp hb with rfl | hb
    · rw [if_neg hid]
      exact List.mem_cons_self
    · split_ifs
      · exact List.mem_cons_of_mem _ hb
      · exact List.mem_cons_of_mem _ (ih hb)

/-- INTERNAL: what a revocation hands over. -/
theorem Served.revoke {s s' : ProviderState} {human : UInt32} {id : String} {now : ℕ} (h : Served s)
    (hs' : handedState (Model.revokeAgent ownerUid s human id now) = some s') : Served s' := by
  obtain ⟨handed, hok, hstate⟩ := handedState_eq_some _ _ hs'
  have hhuman : human = ownerUid := by
    by_contra hne
    simp [Model.revokeAgent, checkAdministrator, hne, bind, Except.bind] at hok
  subst hhuman
  cases hfind : s.pairings.find? (·.id = id) with
  | none => simp [Model.revokeAgent, checkAdministrator, hfind, bind, Except.bind] at hok
  | some binding =>
    cases hstatus : binding.status with
    | revoked =>
      rw [revokeAgent_revoked human now hfind hstatus, Except.ok.injEq] at hok
      rw [← hok] at hstate
      simp at hstate
    | enabled =>
      obtain ⟨s₁, hrevoke, hrevoked⟩ := revokeAgent_enabled human now hfind hstatus
      rw [hrevoke, Except.ok.injEq] at hok
      rw [← hok, Option.some.injEq] at hstate
      subst hstate
      intro r' hr' hwaits other howned
      obtain ⟨r, hr, hswept⟩ := exists_left_of_forall₂ hrevoked.requests r' hr'
      obtain ⟨rfl, hkind⟩ := hswept.of_waits hwaits
      obtain ⟨b, hb, hid, henabled⟩ := h r' hr hwaits other howned
      refine ⟨b, ?_, hid, henabled⟩
      rw [hrevoked.others]
      apply mem_revokeFirst_of_ne id s.pairings b hb
      intro heq
      apply hkind
      rw [← heq, hid]
      exact ⟨hwaits, howned⟩

/-- INTERNAL: **every event keeps it.** -/
theorem step_served (store : Store) (event : Event) (hphase : InPhase store.durable)
    (h : Served store.durable) : Served (step E ownerUid store event).durable := by
  rcases @step_durable E ownerUid store event with hsame | ⟨s', hs', -, hnext⟩
  · rw [hsame]
    exact h
  · obtain ⟨s, hreads, hs, hstep⟩ := @handsOver_step E ownerUid False store event s' hphase
      (fun _ hl => hl.elim) hs'
    rw [hnext]
    have hserved : Served s := by
      rw [hs]
      exact h
    have hhanded : event.handed E ownerUid s = some s' := by
      simpa [Event.handsOver, hreads] using hs'
    have hkept : ∀ {ε α : Type} (result : Except ε (Handed α)), handedState result = some s' →
        Hands (fun s' => s'.pairings = s.pairings) result → s'.pairings = s.pairings := by
      intro ε α result hresult hhands
      obtain ⟨handed, hok, hstate⟩ := handedState_eq_some _ _ hresult
      exact hhands handed s' hok hstate
    cases event with
    | restart env w => exact hserved.step hstep (hkept _ hhanded (hands_recover env s))
    | op op env w =>
      simp only [Event.handed] at hhanded
      by_cases hrevoke : ∃ human id now, op = .revokeAgent human id now
      · obtain ⟨human, id, now, rfl⟩ := hrevoke
        exact hserved.revoke hhanded
      by_cases hpair : ∃ human input now, op = .pairAgent human input now
      · obtain ⟨human, input, now, rfl⟩ := hpair
        obtain ⟨handed, hok, hstate⟩ := handedState_eq_some _ _ hhanded
        obtain ⟨hrequests, hpairings⟩ := hands_pairAgent env s human input now handed s' hok hstate
        intro r hr hwaits id howned
        rw [hrequests] at hr
        obtain ⟨b, hb, hkind⟩ := hserved r hr hwaits id howned
        exact ⟨b, hpairings hb, hkind⟩
      rw [handed_eq_eval] at hhanded
      apply hserved.step hstep
      apply hkept _ hhanded
      apply hands_pairings env s op
      · exact fun human input now heq => hpair ⟨human, input, now, heq⟩
      · exact fun human id now heq => hrevoke ⟨human, id, now, heq⟩

/-- INTERNAL: the identifiers of bindings are apart. -/
theorem run_bindings (events : List Event) :
    ((run E ownerUid Store.initial events).durable.pairings.map (·.id)).Nodup := by
  apply run_invariant (step E ownerUid) (fun store => (store.durable.pairings.map (·.id)).Nodup)
  · intro store event h
    rcases @step_durable E ownerUid store event with hsame | ⟨s', -, hvalid, hnext⟩
    · rw [hsame]
      exact h
    · rw [hnext]
      simp only [ProviderState.validateForOwner, Bool.and_eq_true] at hvalid
      exact ((validateRegistry_iff _ _).mp hvalid.1.1.1.1.1.1.1.1.2).ids
  · exact List.nodup_nil

/-- INTERNAL: **no request of a revoked agent waits in any run.** -/
theorem run_served (events : List Event) (id : String) (binding : AgentBinding)
    (hfind : (run E ownerUid Store.initial events).durable.pairings.find? (·.id = id) = some binding)
    (hstatus : binding.status = .revoked) :
    ∀ r ∈ (run E ownerUid Store.initial events).durable.requests, ¬ (Waits r ∧ OwnedBy id r) := by
  have hserved : InPhase (run E ownerUid Store.initial events).durable ∧
      Served (run E ownerUid Store.initial events).durable := by
    apply run_invariant (step E ownerUid) (fun store => InPhase store.durable ∧ Served store.durable)
    · exact fun store event h => ⟨step_inPhase store event h.1, step_served store event h.1 h.2⟩
    · exact ⟨initial_inPhase, fun r hr => absurd hr List.not_mem_nil⟩
  rintro r hr ⟨hwaits, howned⟩
  obtain ⟨b, hb, hid, henabled⟩ := hserved.2 r hr hwaits id howned
  have hfound := find_of_nodup (·.id) _ (run_bindings events) b hb
  rw [hid, hfind, Option.some.injEq] at hfound
  rw [hfound, henabled] at hstatus
  simp at hstatus

end Served

/-! ## The results -/

section Results

variable (E : Externals) (ownerUid : UInt32)

/-- What expiry and the revocation of an agent do, and that they do nothing else. -/
structure Exact : Prop where
  expiry : ∀ (t : ℕ) (m : Shared) (s : ProviderState) (i₀ i₁ i₂ i₃ : Input),
    Succeeds E ownerUid m.authority.store (.expireDirect m.clock m.authority.requestDeadlines) i₂ s →
    ∃ m', expireRequests.run.runFor (performAct E ownerUid t) [i₀, i₁, i₂, i₃] m = (some (.ok ()), m') ∧
      After s m m' ∧
      ∀ (s' : ProviderState) (j₀ j₁ j₂ j₃ : Input),
        Succeeds E ownerUid m'.authority.store (.expireDirect m'.clock m'.authority.requestDeadlines) j₂
          s' →
        ∃ log, expireRequests.run.runFor (performAct E ownerUid t) [j₀, j₁, j₂, j₃] m' =
          (some (.ok ()), { m' with log := log })
  enabled : ∀ (store : Store) (input : Input) (id : String) (now : ℕ) (s : ProviderState)
    (binding : AgentBinding), Succeeds E ownerUid store (.revokeAgent ownerUid id now) input s →
    s.pairings.find? (·.id = id) = some binding → binding.status = .enabled →
    ∃ s' view, store.call E ownerUid (.revokeAgent ownerUid id now) input.env input.outcome
        input.unreadable = ({ store with durable := s' }, .ok view) ∧
      Revoked ownerUid id now binding s s'
  revoked : ∀ (store : Store) (input : Input) (id : String) (now : ℕ) (s : ProviderState)
    (binding : AgentBinding), Succeeds E ownerUid store (.revokeAgent ownerUid id now) input s →
    s.pairings.find? (·.id = id) = some binding → binding.status = .revoked →
    ∃ view, store.call E ownerUid (.revokeAgent ownerUid id now) input.env input.outcome
      input.unreadable = (store, .ok view)
  reached : ∀ (events : List Event) (id : String) (binding : AgentBinding),
    (run E ownerUid Store.initial events).durable.pairings.find? (·.id = id) = some binding →
    binding.status = .revoked →
    ∀ r ∈ (run E ownerUid Store.initial events).durable.requests, ¬ (Waits r ∧ OwnedBy id r)

/-- **Expiry and revocation are exact.** When the store and the clock succeed, `expire_requests`
expires the unclaimed requests that are pending or approved and have no deadline ahead, keeps the
deadlines that are ahead, changes nothing else, and changes nothing when it is called again. The
revocation of an agent that is enabled expires the unclaimed requests of this agent that are pending
or approved; that of a revoked agent changes nothing, and in every run it has no such request.
SRCLINE: application.rs:924-938, provider.rs:156-196, provider.rs:590-626 -/
theorem exact_sweeps : Exact E ownerUid := by
  constructor
  · intro t m s i₀ i₁ i₂ i₃ h
    obtain ⟨m', hrun, hafter⟩ := expireRequests_exact t i₀ i₁ i₃ h
    refine ⟨m', hrun, hafter, ?_⟩
    intro s' j₀ j₁ j₂ j₃ hagain
    exact expireRequests_again hafter hagain
  · intro store input id now s binding h hfind hstatus
    obtain ⟨s', heval, hrevoked⟩ := revokeAgent_enabled ownerUid now hfind hstatus
    exact ⟨s', _, h.call_some heval, hrevoked⟩
  · intro store input id now s binding h hfind hstatus
    have heval := revokeAgent_revoked ownerUid now hfind hstatus
    exact ⟨_, h.call_none heval⟩
  · intro events id binding hfind hstatus
    exact run_served events id binding hfind hstatus

end Results

/-! ## A revoked agent with a request -/

/-- A valid state, which no run reaches: the agent is revoked and its request is pending. The
revocation answers, and leaves the request as it is.
SRCLINE: provider.rs:180-196 -/
theorem revocation_passes_over :
    ¬ ∀ (E : Externals) (ownerUid : UInt32) (store : Store) (input : Input) (id : String) (now : ℕ)
      (s : ProviderState) (store' : Store) (view : AgentBindingView),
      Succeeds E ownerUid store (.revokeAgent ownerUid id now) input s →
      store.call E ownerUid (.revokeAgent ownerUid id now) input.env input.outcome input.unreadable =
        (store', .ok view) →
      List.Forall₂ (Swept (fun r => Waits r ∧ OwnedBy id r) .invalidated) s.requests
        store'.durable.requests := by
  intro hclaim
  obtain ⟨E, haccepting⟩ : ∃ E, Sample.Accepting E :=
    ⟨{ Sample.externals with verifyingKey := fun _ => true, verifyStrict := fun _ _ _ => true },
      fun _ => rfl, fun _ _ _ => rfl⟩
  obtain ⟨marker, -, hinv⟩ := Sample.reached_asked E haccepting
  obtain ⟨s, hs⟩ : ∃ s : ProviderState, s = { Sample.asked E marker with
      pairings := revokeFirst (Sample.agent E).id (Sample.asked E marker).pairings
      agentAudit := (Sample.asked E marker).agentAudit ++
        [{ Sample.agent E with status := .revoked : AgentBinding }.audit 1000 200 .revoked] } := ⟨_, rfl⟩
  have hfind : (Sample.asked E marker).pairings.find? (·.id = (Sample.agent E).id) =
      some (Sample.agent E) := by
    simp [Sample.asked, Sample.paired]
  have himages : ImagesUnchanged E Sample.env.disk (Sample.asked E marker) :=
    Sample.imagesUnchanged E _ (Or.inr rfl)
  have hstep : StateStep E 1000 Sample.env True (Sample.asked E marker) s := by
    rw [hs]
    exact .revoke _ (Sample.agent E) 200 _ hfind rfl (List.forall₂_same.mpr fun r _ => ⟨.same, rfl⟩)
  obtain ⟨hvalid, hunchanged⟩ := hinv.step himages hstep
  have hfound : s.pairings.find? (·.id = (Sample.agent E).id) =
      some { Sample.agent E with status := .revoked } := by
    rw [hs]
    simp [Sample.asked, Sample.paired, revokeFirst]
  have heval : revokeAgent 1000 s 1000 (Sample.agent E).id 300 = .ok ⟨_, none⟩ :=
    revokeAgent_revoked 1000 300 hfound rfl
  have hsucceeds : Succeeds E 1000 ⟨s, false⟩ (.revokeAgent 1000 (Sample.agent E).id 300)
      (good Sample.env) s := by
    refine ⟨rfl, ?_, fun _ => ⟨10, rfl⟩, ?_, rfl⟩
    · show Store.readState E 1000 Sample.env.disk ⟨s, false⟩ = .ok s
      simp [Store.readState, hvalid.tryFrom_wire _ hunchanged, hvalid.validateForOwner _ hunchanged]
    · intro s' hs'
      rw [handed_eq_eval] at hs'
      simp [Op.eval, heval, handedState] at hs'
  have hcall := hsucceeds.call_none heval
  have hswept := hclaim E 1000 _ _ _ _ _ _ _ hsucceeds hcall
  have hrequests : s.requests = [Sample.request E marker] := by
    rw [hs]
    rfl
  rw [hrequests] at hswept
  obtain ⟨hrequest, -⟩ := List.forall₂_cons.mp hswept
  have hwaits : Waits (Sample.request E marker) := ⟨_, rfl, rfl, Or.inl rfl⟩
  exact (hrequest.of_waits hwaits).2 ⟨hwaits, _, Sample.owner E, rfl, rfl, rfl⟩

end VaultAccess.Analysis.Expiry
