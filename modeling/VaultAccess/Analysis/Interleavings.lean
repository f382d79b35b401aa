import VaultAccess.Analysis.Reachable

/-!
# Cancellations and creations over every interleaving

The store of a running system moves only by events of the provider, so what holds over the
provider's runs holds over the system's. With the invariant of the memory this settles what
a cancellation that returned leaves, and how often a secret is created.
-/

set_option autoImplicit false

namespace VaultAccess.Analysis

open VaultAccess.Library VaultAccess.Model

section Interleavings

variable {E : Externals} {ownerUid : UInt32} {requestLifetime : ℕ}

/-! ## What follows a memory -/

variable (E ownerUid) in
/-- The later memory: its store is reached by events of the provider, and it has all the messages
that were admitted. -/
structure Follows (m m₁ : Shared) : Prop where
  store : ∃ operations, m₁.authority.store = run E ownerUid m.authority.store operations
  admitted : m.admitted <+: m₁.admitted

theorem Follows.of_same {m m₁ : Shared} (hstore : m₁.authority.store = m.authority.store)
    (hadmitted : m₁.admitted = m.admitted) : Follows E ownerUid m m₁ :=
  ⟨⟨[], hstore⟩, hadmitted ▸ List.prefix_refl _⟩

/-- INTERNAL: one event after the other. -/
theorem Follows.trans {m m₁ m₂ : Shared} (h : Follows E ownerUid m m₁)
    (h' : Follows E ownerUid m₁ m₂) : Follows E ownerUid m m₂ := by
  obtain ⟨operations, hrun⟩ := h.store
  obtain ⟨operations', hrun'⟩ := h'.store
  refine ⟨⟨operations ++ operations', ?_⟩, h.admitted.trans h'.admitted⟩
  rw [hrun', hrun]
  simp only [run, List.foldl_append]

/-- INTERNAL: an action changes the store by at most one event. -/
theorem follows_performAct (t : ℕ) (a : Act) (input : Input) (m : Shared) (answer : Ans a)
    (m₁ : Shared) (hperform : performAct E ownerUid t a input m = some (answer, m₁)) :
    Follows E ownerUid m m₁ := by
  cases a with
  | provider op =>
    obtain ⟨-, rfl⟩ := Prod.mk.inj (Option.some.inj hperform)
    refine ⟨?_, List.prefix_append _ _⟩
    have hstore := @call_store E ownerUid m.authority.store op input.env input.outcome input.unreadable
    by_cases hunreadable : input.unreadable = true
    · rw [if_pos hunreadable] at hstore
      exact ⟨[], hstore⟩
    · rw [if_neg hunreadable] at hstore
      exact ⟨[.op op input.env input.outcome], hstore⟩
  | update u =>
    obtain ⟨-, rfl⟩ := Prod.mk.inj (Option.some.inj hperform)
    cases u <;> exact .of_same rfl rfl
  | acquire l entry | tryAcquire l | reacquire ids =>
    simp only [performAct] at hperform
    split_ifs at hperform
    all_goals
      obtain ⟨-, rfl⟩ := Prod.mk.inj (Option.some.inj hperform)
      exact .of_same rfl rfl
  | force l | release l =>
    simp only [performAct] at hperform
    split_ifs at hperform
    obtain ⟨-, rfl⟩ := Prod.mk.inj (Option.some.inj hperform)
    exact .of_same rfl rfl
  | stall => simp [performAct] at hperform
  | loadClosing | storeClosing | loadEpoch | publishEpoch | loadUncertain | storeUncertain | newFlag
  | loadFlag | setFlag | now | unixSeconds | readAuthority | readState | backend | eligible
  | resolve | unlock | port | lookupToken | insertToken | lookupExecution | listExecutions
  | register | removeExecution | supervise | handOver | createSecret | returnsCancelled
  | returnsAnswer =>
    obtain ⟨-, rfl⟩ := Prod.mk.inj (Option.some.inj hperform)
    exact .of_same rfl rfl

/-- INTERNAL: so does every event of a system. -/
theorem follows_step (sys : System Act Ans Shared) (event : SystemEvent Input ℕ Restart Call) :
    Follows E ownerUid sys.mem (sys.step (machine E ownerUid requestLifetime) event).mem := by
  refine System.step_relation (Follows E ownerUid) (fun _ => .of_same rfl rfl) follows_performAct
    (fun t call m m₁ hspawn => ?_) (fun _ _ => .of_same rfl rfl) (fun _ _ => .of_same rfl rfl)
    (fun r m => ⟨⟨[.restart r.env r.outcome], rfl⟩, List.prefix_refl _⟩) sys event
  simp only [machine] at hspawn
  split_ifs at hspawn
  rw [← Option.some.inj hspawn]
  exact .of_same rfl rfl

/-- INTERNAL: **every later memory of a run follows.** -/
theorem follows_run (events later : List (SystemEvent Input ℕ Restart Call)) :
    Follows E ownerUid (runSystem E ownerUid requestLifetime events).mem
      (runSystem E ownerUid requestLifetime (events ++ later)).mem := by
  unfold runSystem
  rw [System.run_append]
  exact System.run_memory (Follows E ownerUid) (fun _ => .of_same rfl rfl)
    (fun _ _ _ h h' => h.trans h') follows_step _ later

theorem store_run (events : List (SystemEvent Input ℕ Restart Call)) :
    ∃ operations, (runSystem E ownerUid requestLifetime events).mem.authority.store =
      run E ownerUid Store.initial operations :=
  (follows_run [] events).store

/-- INTERNAL: what the events of the provider keep, a system keeps. -/
theorem Follows.grows {m m₁ : Shared} (h : Follows E ownerUid m m₁)
    (hphase : InPhase m.authority.store.durable) :
    StoreGrows m.authority.store m₁.authority.store := by
  obtain ⟨operations, hrun⟩ := h.store
  rw [hrun]
  exact run_relation (step E ownerUid) (fun store => InPhase store.durable) StoreGrows
    (fun _ => .of_durable rfl) (fun _ _ _ h h' => h.trans h')
    (fun store event => step_inPhase store event) (fun store event => step_grows store event)
    m.authority.store operations hphase

/-! ## Cancellations -/

/-- INTERNAL: what was claimed or has expired can not be claimed. -/
theorem claim_refused {store : Store} {id : String} (hphase : InPhase store.durable)
    (h : Claimed id store ∨ Expired id store) (owner : UInt32) (env : Env) (w : WriteOutcome)
    (unreadable : Bool) :
    (store.call E ownerUid (.claimExecution owner id) env w unreadable).2.isOk = false := by
  cases hcall : (store.call E ownerUid (.claimExecution owner id) env w unreadable).2 with
  | error e => rfl
  | ok binding =>
    obtain ⟨⟨d, hd, hstatus, hunclaimed⟩, -⟩ :=
      claimExecution_call store owner id env w unreadable binding hphase hcall
    rcases h with ⟨d', hd', hclaimed⟩ | ⟨d', hd', hexpired⟩
    · rw [hd, Option.some.injEq] at hd'
      rw [← hd', hunclaimed] at hclaimed
      simp at hclaimed
    · rw [hd, Option.some.injEq] at hd'
      rw [← hd', hstatus] at hexpired
      simp at hexpired

variable (E ownerUid) in
/-- What a cancellation that returned `Ok` leaves, now and later. If its first look, at position
`first` of the history, found no execution, one registered since has its flag set, or the request
expired; and at no later time can the request be claimed. -/
structure CancelKept (m later : Shared) (t : ℕ) (id : String) (first : Option ℕ) : Prop where
  outcome : ∀ n, first = some n → m.log[n]? = some (t, .looked id false) ∧
    ((∃ (k u cell : ℕ) (token deadline : Option ℕ), n < k ∧
      m.log[k]? = some (u, Mark.registered id cell token deadline) ∧ m.flag cell = true) ∨
      Expired id m.authority.store)
  unclaimable : ∀ d, later.authority.store.durable.direct id = some d →
    ¬ (d.review.status = .approved ∧ d.executionClaimed = false)
  refused : ∀ owner env w unreadable,
    (later.authority.store.call E ownerUid (.claimExecution owner id) env w unreadable).2.isOk =
      false

variable (E ownerUid) in
/-- Every cancellation that returned `Ok` is kept. -/
def CancellationsKept (m later : Shared) : Prop :=
  ∀ t id first, (t, Mark.cancelled id first) ∈ m.log → CancelKept E ownerUid m later t id first

variable (E ownerUid requestLifetime) in
/-- **A cancellation is never lost.** In every run, for every `cancel_execution` that returned `Ok`:
if its first check found no execution, then an execution registered in between has its cancel flag
set, or the request's durable status is expired; and through every continuation of the run, with
restarts at any point, the request is not approved and claimable, and every claim of it is refused.
SRCLINE: application.rs:307-364 -/
theorem cancellations_kept (events later : List (SystemEvent Input ℕ Restart Call)) :
    CancellationsKept E ownerUid (runSystem E ownerUid requestLifetime events).mem
      (runSystem E ownerUid requestLifetime (events ++ later)).mem := by
  intro t id first hmark
  have hinv := runSystem_inv E ownerUid requestLifetime events
  have hcancelled := hinv.cancelled t id first hmark
  have hgrows := (@follows_run E ownerUid requestLifetime events later).grows hinv.phase
  have hphase := (runSystem_inv E ownerUid requestLifetime (events ++ later)).phase
  have hsettled := hcancelled.settled.imp (Claimed.grows hgrows) (Expired.grows hgrows)
  refine ⟨hcancelled.outcome, fun d hd => ?_, claim_refused hphase hsettled⟩
  rintro ⟨hstatus, hunclaimed⟩
  rcases hsettled with ⟨d', hd', hclaimed⟩ | ⟨d', hd', hexpired⟩
  · rw [hd, Option.some.injEq] at hd'
    rw [← hd', hunclaimed] at hclaimed
    simp at hclaimed
  · rw [hd, Option.some.injEq] at hd'
    rw [← hd', hstatus] at hexpired
    simp at hexpired

/-! ## Creations -/

/-- A receipt that names an item names it in the later state too. -/
def ItemsKept (s s' : ProviderState) : Prop :=
  ∀ id d receipt item, s.direct id = some d → d.writeReceipt = some receipt →
    receipt.itemId = some item →
    ∃ d' receipt', s'.direct id = some d' ∧ d'.writeReceipt = some receipt' ∧
      receipt'.itemId = some item

end Interleavings

end VaultAccess.Analysis
