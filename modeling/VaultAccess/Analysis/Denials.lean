import VaultAccess.Library.Restriction
import VaultAccess.Analysis.Calls
import VaultAccess.Analysis.Replays
import VaultAccess.Analysis.Validation
import VaultAccess.Analysis.Within
import VaultAccess.Model.Denials

/-!
# Denying an agent while its calls write

A revocation publishes the agent's token before it waits for the gate, and a write under the
gate looks at the token twice. If a write finds its authorization at the first look and not at
the second, it has already renamed the file, and it poisons the store: the revocation that
waits can then not be recorded. In every other interleaving the revocation is recorded.
-/

set_option autoImplicit false

namespace VaultAccess.Analysis.Denials

open VaultAccess.Library VaultAccess.Model VaultAccess.Model.Application VaultAccess.Model.Denials

/-! ## The binding of an agent -/

/-- The agent is enrolled. -/
def Bound (id : String) (s : ProviderState) : Prop := ∃ b, s.pairings.find? (·.id = id) = some b

/-- The agent's binding is revoked, and this is its view. -/
def RevokedAs (id : String) (view : AgentBindingView) (s : ProviderState) : Prop :=
  ∃ b, s.pairings.find? (·.id = id) = some b ∧ b.status = .revoked ∧ b.view = view

/-- What the state keeps of an agent: its binding, and that it is revoked. -/
structure KeepsAgent (id : String) (s s' : ProviderState) : Prop where
  bound : Bound id s → Bound id s'
  revoked : ∀ view, RevokedAs id view s → RevokedAs id view s'

theorem KeepsAgent.refl (id : String) (s : ProviderState) : KeepsAgent id s s := ⟨fun h => h, fun _ h => h⟩

/-- INTERNAL: the bindings did not change. -/
theorem KeepsAgent.of_eq {id : String} {s s' : ProviderState} (h : s'.pairings = s.pairings) :
    KeepsAgent id s s' := by
  constructor
  · rintro ⟨b, hb⟩
    exact ⟨b, by rw [h, hb]⟩
  · rintro view ⟨b, hb, hrest⟩
    exact ⟨b, by rw [h, hb], hrest⟩

/-- INTERNAL: a binding that is found in a list after a revocation. -/
theorem find_revoked (id x : String) (l : List AgentBinding) (b : AgentBinding)
    (hb : l.find? (·.id = x) = some b) :
    (revokeFirst id l).find? (·.id = x) = some (if id = x then { b with status := .revoked } else b) := by
  induction l with
  | nil => simp at hb
  | cons c l ih =>
    unfold revokeFirst
    by_cases hid : c.id = id
    · rw [if_pos hid]
      by_cases hx : c.id = x
      · have hbc : c = b := by simpa [hx] using hb
        have hidx : id = x := hid.symm.trans hx
        simp [hidx, ← hbc, hx]
      · have hidx : ¬ id = x := fun heq => hx (hid.trans heq)
        have hb' : l.find? (·.id = x) = some b := by simpa [List.find?_cons, hx] using hb
        simp [hx, hb', hidx]
    · rw [if_neg hid]
      by_cases hx : c.id = x
      · have hbc : c = b := by simpa [hx] using hb
        have hidx : ¬ id = x := fun heq => hid (hx.trans heq.symm)
        have hbx : b.id = x := by rw [← hbc, hx]
        simp [hbc, hidx, hbx]
      · have hb' : l.find? (·.id = x) = some b := by simpa [List.find?_cons, hx] using hb
        simp [hx, ih hb']

/-- INTERNAL: no change of the state takes a revocation back. -/
theorem keepsAgent_step {E : Externals} {ownerUid : UInt32} {env : Env} {legit : Prop}
    {s s' : ProviderState} (h : StateStep E ownerUid env legit s s') (id : String) :
    KeepsAgent id s s' := by
  cases h with
  | pair input random binding now =>
    constructor
    · rintro ⟨b, hb⟩
      exact ⟨b, by simp [List.find?_append, hb]⟩
    · rintro view ⟨b, hb, hrest⟩
      exact ⟨b, by simp [List.find?_append, hb], hrest⟩
  | revoke id' binding now requests hfind henabled =>
    constructor
    · rintro ⟨b, hb⟩
      exact ⟨_, find_revoked id' id s.pairings b hb⟩
    · rintro view ⟨b, hb, hrevoked, hview⟩
      have hne : ¬ id' = id := by
        rintro rfl
        rw [hb, Option.some.injEq] at hfind
        rw [hfind, henabled] at hrevoked
        exact absurd hrevoked (by decide)
      exact ⟨b, by simp [find_revoked id' id s.pairings b hb, hne], hrevoked, hview⟩
  | create | updateOne | updateAll | invalidate | query | provision | register => exact .of_eq rfl

/-! ## Operations -/

section Operations

variable {E : Externals} {ownerUid : UInt32}

/-- What holds of the store in every run of these calls: it is sound, not poisoned, and the agent
is enrolled. -/
structure StoreOk (E : Externals) (ownerUid : UInt32) (id : String) (store : Store) : Prop where
  state : StateInv E ownerUid store.durable
  healthy : store.poisoned = false
  bound : Bound id store.durable

/-- What one step of the store leaves. -/
structure StoreKeeps (E : Externals) (ownerUid : UInt32) (id : String) (store store' : Store) : Prop where
  ok : StoreOk E ownerUid id store'
  agent : KeepsAgent id store.durable store'.durable

theorem StoreOk.readState {id : String} {store : Store} (h : StoreOk E ownerUid id store) {disk : Disk}
    (himages : ImagesUnchanged E disk store.durable) :
    store.readState E ownerUid disk = .ok store.durable := by
  simp [Store.readState, h.healthy, h.state.tryFrom_wire disk himages, h.state.validateForOwner disk himages]

/-- INTERNAL: what an operation hands over keeps the invariant, and the agent. -/
theorem handed_keeps {id : String} {store : Store} (h : StoreOk E ownerUid id store) {env : Env} {op : Op}
    {handed : Handed op.Value} {s' : ProviderState}
    (himages : ImagesUnchanged E env.disk store.durable)
    (hargs : CallerArgs env store.durable op ∧ RecordsWhileExecuting store.durable op)
    (heval : op.eval E ownerUid env store.durable = .ok handed) (hs' : handed.state = some s') :
    StoreKeeps E ownerUid id store { store with durable := s' } ∧
      s'.validateForOwner E env.disk ownerUid = true := by
  have hstep : StateStep E ownerUid env True store.durable s' := by
    refine handed_step op h.state.inPhase.phase (fun _ => hargs) ?_
    rw [handed_eq_eval, heval]
    exact hs'
  obtain ⟨hstate, hunchanged⟩ := h.state.step himages hstep
  have hagent := keepsAgent_step hstep id
  exact ⟨⟨⟨hstate, h.healthy, hagent.bound h.bound⟩, hagent⟩, hstate.validateForOwner env.disk hunchanged⟩

/-- INTERNAL: **an operation that is one step keeps the store sound.** -/
theorem call_keeps {id : String} {store : Store} (h : StoreOk E ownerUid id store) {env : Env} {op : Op}
    (himages : ImagesUnchanged E env.disk store.durable)
    (hargs : CallerArgs env store.durable op ∧ RecordsWhileExecuting store.durable op) :
    StoreKeeps E ownerUid id store (store.call E ownerUid op env .committed false).1 := by
  have hsame : StoreKeeps E ownerUid id store store := ⟨h, .refl id _⟩
  simp only [Store.call, Bool.false_eq_true, if_false, h.readState himages]
  cases heval : op.eval E ownerUid env store.durable with
  | error e => exact hsame
  | ok handed =>
    cases hs' : handed.state with
    | none => simpa [hs'] using hsame
    | some s' =>
      obtain ⟨hkeeps, hvalid⟩ := handed_keeps h himages hargs heval hs'
      simpa [hs', Store.writeState, h.healthy, hvalid] using hkeeps

/-- INTERNAL: a revocation changes every request it has to. -/
theorem revokeRequest_ok (id : String) (now index : ℕ) (r : RequestRecord) :
    ∃ r', revokeRequest id now index r = .ok r' := by
  unfold revokeRequest
  cases hd : r.direct with
  | none => exact ⟨r, rfl⟩
  | some d =>
    simp only
    split_ifs with hcase
    · have hstatus : d.review.status = .pending ∨ d.review.status = .approved := by
        simp only [Bool.and_eq_true, Bool.or_eq_true, decide_eq_true_eq] at hcase
        exact hcase.2
      have hlegal : d.legal .expired = true := by
        rcases hstatus with hstatus | hstatus <;> simp [DirectRecord.legal, hstatus]
      simp only [RequestRecord.transition, hd, hlegal, if_true]
      exact ⟨_, rfl⟩
    · exact ⟨r, rfl⟩

/-- INTERNAL: **on a sound store the owner's revocation succeeds.** -/
theorem revoke_succeeds {id : String} {store : Store} (h : StoreOk E ownerUid id store) {env : Env}
    (now : ℕ) (himages : ImagesUnchanged E env.disk store.durable) :
    ∃ view, (store.call E ownerUid (.revokeAgent ownerUid id now) env .committed false).2 = .ok view ∧
      RevokedAs id view (store.call E ownerUid (.revokeAgent ownerUid id now) env .committed false).1.durable := by
  obtain ⟨b, hb⟩ := h.bound
  cases hstatus : b.status with
  | enabled =>
    obtain ⟨requests, hrequests⟩ := updateRequests_ok (revokeRequest id now) 0 store.durable.requests
      fun r _ i => revokeRequest_ok id now i r
    have heval : (Op.revokeAgent ownerUid id now).eval E ownerUid env store.durable =
        .ok ⟨{ b with status := .revoked : AgentBinding }.view, some { store.durable with
          pairings := revokeFirst id store.durable.pairings
          agentAudit := store.durable.agentAudit ++
            [{ b with status := .revoked : AgentBinding }.audit ownerUid now .revoked]
          requests := requests }⟩ := by
      simp [Op.eval, Model.revokeAgent, checkAdministrator, hb, hstatus, hrequests, Except.mapError, bind,
        Except.bind, pure, Except.pure]
    obtain ⟨-, hvalid⟩ := handed_keeps h himages (by exact ⟨trivial, trivial⟩) heval rfl
    refine ⟨{ b with status := .revoked : AgentBinding }.view, ?_, ?_⟩
    · simp [Store.call, h.readState himages, heval, Store.writeState, h.healthy, hvalid]
    have hfind := find_revoked id id store.durable.pairings b hb
    rw [if_pos rfl] at hfind
    simp only [Store.call, Bool.false_eq_true, if_false, h.readState himages, heval, Store.writeState,
      h.healthy, hvalid, Bool.not_true]
    exact ⟨_, hfind, rfl, rfl⟩
  | revoked =>
    have heval : (Op.revokeAgent ownerUid id now).eval E ownerUid env store.durable = .ok ⟨b.view, none⟩ := by
      simp [Op.eval, Model.revokeAgent, checkAdministrator, hb, hstatus, bind, Except.bind, pure, Except.pure]
    refine ⟨b.view, by simp [Store.call, h.readState himages, heval], ?_⟩
    simp only [Store.call, Bool.false_eq_true, if_false, h.readState himages, heval]
    exact ⟨b, hb, hstatus, rfl⟩

end Operations

/-! ## What the threads keep to -/

/-- No authorization of a write ends between its two checks. -/
def Undisturbed (m m₁ : Memory) : Prop :=
  ∀ t guard, m.writing t = some guard → guard.holds m.shared = true → guard.holds m₁.shared = true

/-- The owner's local revocation of the agent, and the agent's own calls. -/
def Concerns (ownerUid : UInt32) (id : String) : Call → Prop
  | .revokeAgent human id' authorityBinding => human = ownerUid ∧ id' = id ∧ authorityBinding = none
  | .submitSigned _ _ input => input.bindingId = id
  | .signedAgentStatus _ _ query _ => query.bindingId = id
  | _ => False

/-- No step of the file system fails, no mutex is poisoned, the registered executables read back
unchanged, and the wall clock can be read. -/
structure Smooth (E : Externals) (input : Input) (m : Memory) : Prop where
  committed : input.outcome = .committed
  readable : input.unreadable = false
  unpoisoned : input.poisoned = false
  images : ImagesUnchanged E input.env.disk m.store.durable
  clock : input.number.isOk = true

/-- The calls are the owner's revocation and the agent's own, and everything outside goes well. -/
def smoothly (E : Externals) (ownerUid : UInt32) (id : String) : Conditions StepAct Memory Input Call where
  act _ _ input m _ := Smooth E input m
  call _ call _ := Concerns ownerUid id call
  world _ _ := True

/-- Besides, no authorization of a write ends between its two checks. -/
def undisturbed (E : Externals) (ownerUid : UInt32) (id : String) : Conditions StepAct Memory Input Call where
  act _ _ input m m₁ := Smooth E input m ∧ Undisturbed m m₁
  call _ call _ := Concerns ownerUid id call
  world := Undisturbed

section Discipline

variable (E : Externals) (ownerUid : UInt32) (requestLifetime : ℕ) (id : String)

/-- What a revocation returns: the agent is revoked, and the answer is its view, or admission
was closed. -/
def Outcome (result : Except DirectRequestError AgentBindingView) (m : Memory) : Prop :=
  ∃ view, RevokedAs id view m.store.durable ∧
    (result = .ok view ∨ result = .error .unavailable ∧ m.shared.closing = true)

structure Inv (m : Memory) : Prop where
  store : StoreOk E ownerUid id m.store
  temporary : ∀ s, m.temporary = some s → StoreKeeps E ownerUid id m.store { m.store with durable := s }
  live : ∀ t guard, m.writing t = some guard → guard.holds m.shared = true
  token : (lookupKey m.shared.agentTokens id).isSome = true
  executions : ∀ entry ∈ m.shared.executions, entry.2.agentId ≠ some id
  certain : m.shared.cleanupUncertain = false
  returned : ∀ entry ∈ m.returned, Outcome id entry.2 m

/-- What every step keeps. -/
structure Grows (m m₁ : Memory) : Prop where
  agent : KeepsAgent id m.store.durable m₁.store.durable
  closing : m.shared.closing = true → m₁.shared.closing = true
  called : ∀ t call, m.called t = some call → m₁.called t = some call
  returned : m.returned ⊆ m₁.returned

/-- What the steps of others keep for a thread. -/
structure Rely (t : ℕ) (m m₁ : Memory) : Prop extends Grows id m m₁ where
  writing : m₁.writing t = m.writing t

/-- The operations whose write is guarded. -/
def Guarded : Op → Prop
  | .createSigned _ _ now expires _ => now < expires
  | .consumeStatusQuery .. => True
  | _ => False

/-- Where a thread may take a step. -/
def Good (t : ℕ) (a : StepAct) (m : Memory) : Prop :=
  match a with
  | .app a => Common a ∨ ∃ now, a = .provider (.revokeAgent ownerUid id now)
  | .prepare op => Guarded op
  | .recheck guard => m.writing t = some guard
  | .poison => False
  | .returns result => Outcome id result m
  | .check _ | .discard | .rename | .syncDirectory => True

variable {E ownerUid requestLifetime id}

theorem Grows.refl (m : Memory) : Grows id m m := ⟨.refl id _, fun h => h, fun _ _ h => h, fun _ h => h⟩

/-- INTERNAL: one change after another. -/
theorem Grows.trans {m m₁ m₂ : Memory} (h : Grows id m m₁) (h' : Grows id m₁ m₂) : Grows id m m₂ where
  agent := ⟨fun hb => h'.agent.bound (h.agent.bound hb),
    fun view hr => h'.agent.revoked view (h.agent.revoked view hr)⟩
  closing hc := h'.closing (h.closing hc)
  called t call hc := h'.called t call (h.called t call hc)
  returned _ hentry := h'.returned (h.returned hentry)

theorem Outcome.grows {result : Except DirectRequestError AgentBindingView} {m m₁ : Memory}
    (h : Outcome id result m) (hgrows : Grows id m m₁) : Outcome id result m₁ := by
  obtain ⟨view, hrevoked, hresult⟩ := h
  exact ⟨view, hgrows.agent.revoked view hrevoked, hresult.imp_right fun hr => ⟨hr.1, hgrows.closing hr.2⟩⟩

/-- INTERNAL: what the application's own memory keeps under an action every call may take, other
than an operation of the provider. -/
theorem performAct_common {t : ℕ} {a : Act} {input : Input} {answer : Ans a} {m m₁ : Shared}
    (ha : Common a) (hop : ∀ op, a ≠ .provider op)
    (h : performAct E ownerUid t a input m = some (answer, m₁)) :
    m₁.authority.store = m.authority.store ∧ m₁.agentTokens = m.agentTokens ∧
      m₁.executions = m.executions ∧ m₁.cleanupUncertain = m.cleanupUncertain ∧
      (m.closing = true → m₁.closing = true) := by
  cases a with
  | provider op => exact absurd rfl (hop op)
  | storeUncertain | newFlag | insertToken | register | removeExecution | supervise | handOver
  | createSecret | returnsCancelled | returnsAnswer => exact ha.elim
  | acquire | tryAcquire | force | reacquire | release =>
    simp only [performAct] at h
    split_ifs at h <;> first
      | contradiction
      | (simp only [Option.some.injEq, Prod.mk.injEq] at h; rw [← h.2]; exact ⟨rfl, rfl, rfl, rfl, id⟩)
  | update u =>
    simp only [performAct, Option.some.injEq, Prod.mk.injEq] at h
    rw [← h.2]
    exact ⟨by cases u <;> rfl, rfl, rfl, rfl, fun hc => hc⟩
  | storeClosing =>
    simp only [performAct, Option.some.injEq, Prod.mk.injEq] at h
    rw [← h.2]
    exact ⟨rfl, rfl, rfl, rfl, fun _ => rfl⟩
  | stall => simp [performAct] at h
  | loadClosing | loadEpoch | publishEpoch | loadUncertain | loadFlag | setFlag | now | unixSeconds
  | readAuthority | readState | backend | eligible | resolve | unlock | port | lookupToken
  | lookupExecution | listExecutions =>
    simp only [performAct, Option.some.injEq, Prod.mk.injEq] at h
    rw [← h.2]
    exact ⟨rfl, rfl, rfl, rfl, fun hc => hc⟩

/-- INTERNAL: what a step has to leave for the invariant to hold after it. -/
theorem Inv.next {m : Memory} (h : Inv E ownerUid id m) (m₁ : Memory)
    (hstore : StoreKeeps E ownerUid id m.store m₁.store)
    (htemporary : ∀ s, m₁.temporary = some s →
      StoreKeeps E ownerUid id m₁.store { m₁.store with durable := s })
    (hlive : ∀ t guard, m₁.writing t = some guard → guard.holds m₁.shared = true)
    (hshared : m₁.shared.agentTokens = m.shared.agentTokens ∧
      m₁.shared.executions = m.shared.executions ∧
      m₁.shared.cleanupUncertain = m.shared.cleanupUncertain ∧
      (m.shared.closing = true → m₁.shared.closing = true))
    (hcalled : m₁.called = m.called) (hreturned : m₁.returned = m.returned) :
    Inv E ownerUid id m₁ ∧ Grows id m m₁ := by
  obtain ⟨htokens, hexecutions, hcertain, hclosing⟩ := hshared
  have hgrows : Grows id m m₁ := ⟨hstore.agent, hclosing,
    fun t call hc => by rw [hcalled]; exact hc, by rw [hreturned]; exact fun _ h => h⟩
  exact ⟨{
    store := hstore.ok
    temporary := htemporary
    live := hlive
    token := by rw [htokens]; exact h.token
    executions := by rw [hexecutions]; exact h.executions
    certain := by rw [hcertain]; exact h.certain
    returned := by
      rw [hreturned]
      exact fun entry hentry => (h.returned entry hentry).grows hgrows }, hgrows⟩

theorem StoreOk.keeps {store : Store} (h : StoreOk E ownerUid id store) :
    StoreKeeps E ownerUid id store store := ⟨h, .refl id _⟩

/-- INTERNAL: an action of the application keeps the invariant. -/
theorem keeps_app {t : ℕ} {a : Act} {input : Input} {answer : Ans a} {m m₁ : Memory}
    (h : Inv E ownerUid id m) (hgood : Good ownerUid id t (.app a) m)
    (hmay : (undisturbed E ownerUid id).act t (.app a) input m m₁)
    (hperform : perform E ownerUid t (.app a) input m = some (answer, m₁)) :
    Inv E ownerUid id m₁ ∧ Grows id m m₁ := by
  obtain ⟨⟨houtcome, hreadable, -, himages, -⟩, hundisturbed⟩ := hmay
  simp only [perform, Option.map_eq_some_iff, Prod.mk.injEq] at hperform
  obtain ⟨⟨answer', shared⟩, hact, -, hm₁⟩ := hperform
  have hlive : ∀ u guard, m₁.writing u = some guard → guard.holds m₁.shared = true := by
    intro u guard hu
    have hwriting : m₁.writing = m.writing := by rw [← hm₁]
    rw [hwriting] at hu
    exact hundisturbed u guard hu (h.live u guard hu)
  by_cases hop : ∃ op, a = .provider op
  · obtain ⟨op, rfl⟩ := hop
    have hargs : CallerArgs input.env m.store.durable op ∧ RecordsWhileExecuting m.store.durable op := by
      rcases hgood with (rfl | ⟨now, deadlines, rfl⟩ | ⟨id', rfl⟩) | ⟨now, hrevoke⟩
      · exact ⟨trivial, trivial⟩
      · exact ⟨trivial, trivial⟩
      · exact ⟨trivial, trivial⟩
      · obtain rfl := Act.provider.inj hrevoke
        exact ⟨trivial, trivial⟩
    simp only [performAct, Option.some.injEq] at hact
    have hshared : shared = (performProvider E ownerUid t op input m.shared).2 := by rw [hact]
    have hcall : m₁.store = (m.store.call E ownerUid op input.env .committed false).1 := by
      rw [← hm₁, hshared]
      simp only [Memory.store, performProvider, houtcome, hreadable]
    refine h.next m₁ ?_ (fun s hs => ?_) hlive ?_ ?_ ?_
    · rw [hcall]
      exact call_keeps h.store himages hargs
    · rw [← hm₁] at hs
      simp at hs
    · rw [← hm₁, hshared]
      exact ⟨rfl, rfl, rfl, fun hc => hc⟩
    · rw [← hm₁]
    · rw [← hm₁]
  · rw [not_exists] at hop
    have hcommon : Common a := by
      rcases hgood with hcommon | hrevoked
      · exact hcommon
      · obtain ⟨now, hrevoke⟩ := hrevoked
        exact absurd hrevoke (hop _)
    obtain ⟨hstore, hrest⟩ := performAct_common hcommon hop hact
    have hsame : m₁.store = m.store := by rw [← hm₁]; exact hstore
    refine h.next m₁ ?_ (fun s hs => ?_) hlive ?_ ?_ ?_
    · rw [hsame]
      exact h.store.keeps
    · rw [hsame]
      refine h.temporary s ?_
      rw [← hm₁] at hs
      cases a with
      | provider op => exact absurd rfl (hop op)
      | _ => exact hs
    · rw [← hm₁]
      exact hrest
    · rw [← hm₁]
    · rw [← hm₁]

/-- INTERNAL: a submission whose state is valid drew a new identifier. -/
theorem fresh_of_valid {env : Env} {s s' : ProviderState} {owner : AgentOwner} {input : SignedSubmission}
    {now expires : ℕ} {authorized : Bool} {handed : Handed DirectReview} {disk : Disk}
    (heval : createSigned E env s owner input now expires authorized = .ok handed)
    (hs' : handed.state = some s') (hvalid : s'.validateForOwner E disk ownerUid = true) :
    FreshRequest env s := by
  obtain ⟨marker, -, -, hcreated⟩ := createSigned_fresh env s owner input now expires authorized handed heval
  obtain ⟨random, d, hrandom, hrequests⟩ : ∃ random d, env.random = some random ∧
      s'.requests = s.requests ++ [⟨newRandom random, .pending, some d⟩] := by
    simp only [createOwned, bind, Except.bind, pure, Except.pure] at hcreated
    repeat' split at hcreated
    all_goals first
      | simp only [reduceCtorEq] at hcreated
      | (rw [← Except.ok.inj hcreated, Option.some.injEq] at hs'
         rw [← hs']
         exact ⟨_, _, ‹env.random = some _›, rfl⟩)
  intro random' hrandom' r hr heq
  rw [hrandom, Option.some.injEq] at hrandom'
  have hunique : (s'.requests.map (·.id)).Nodup := by
    simp only [ProviderState.validateForOwner, Bool.and_eq_true, decide_eq_true_eq] at hvalid
    exact hvalid.1.2
  rw [hrequests, List.map_append, List.nodup_append] at hunique
  exact hunique.2.2 r.id (List.mem_map_of_mem hr) (newRandom random) (by simp) (by rw [heq, hrandom'])

/-- INTERNAL: what a guarded operation writes to the temporary file may replace the state. -/
theorem prepared_keeps {store : Store} (h : StoreOk E ownerUid id store) {op : Op} {input : Input}
    (himages : ImagesUnchanged E input.env.disk store.durable) (hguarded : Guarded op) {s : ProviderState}
    (hs : (prepared E ownerUid store op input).2 = some s) :
    StoreKeeps E ownerUid id store { store with durable := s } := by
  unfold prepared at hs
  split_ifs at hs with hunreadable
  rw [h.readState himages] at hs
  simp only at hs
  cases heval : op.eval E ownerUid input.env store.durable with
  | error e => simp [heval] at hs
  | ok handed =>
    cases hstate : handed.state with
    | none => simp [heval, hstate] at hs
    | some s' =>
      simp only [heval, hstate] at hs
      split_ifs at hs with hinvalid
      have hvalid : s'.validateForOwner E input.env.disk ownerUid = true := by simpa using hinvalid
      obtain rfl : s' = s := by split at hs <;> simp_all
      have hargs : CallerArgs input.env store.durable op ∧ RecordsWhileExecuting store.durable op := by
        cases op with
        | createSigned owner message now expires authorized =>
          exact ⟨⟨hguarded, fresh_of_valid heval hstate hvalid⟩, trivial⟩
        | consumeStatusQuery => exact ⟨trivial, trivial⟩
        | _ => exact hguarded.elim
      exact (handed_keeps h himages hargs heval hstate).1

/-- INTERNAL: **every step keeps the invariant.** -/
theorem keeps_perform {t : ℕ} {a : StepAct} {input : Input} {answer : StepAns a} {m m₁ : Memory}
    (h : Inv E ownerUid id m) (hgood : Good ownerUid id t a m)
    (hmay : (undisturbed E ownerUid id).act t a input m m₁)
    (hperform : perform E ownerUid t a input m = some (answer, m₁)) :
    Inv E ownerUid id m₁ ∧ Grows id m m₁ ∧ ∀ u, u ≠ t → m₁.writing u = m.writing u := by
  have himages := hmay.1.images
  cases a with
  | app a =>
    obtain ⟨hinv, hgrows⟩ := keeps_app h hgood hmay hperform
    simp only [perform, Option.map_eq_some_iff, Prod.mk.injEq] at hperform
    obtain ⟨_, _, _, rfl⟩ := hperform
    exact ⟨hinv, hgrows, fun u _ => rfl⟩
  | prepare op =>
    simp only [perform, Option.some.injEq, Prod.mk.injEq] at hperform
    obtain ⟨-, rfl⟩ := hperform
    obtain ⟨hinv, hgrows⟩ := h.next { m with temporary := (prepared E ownerUid m.store op input).2 }
      h.store.keeps (fun s hs => prepared_keeps h.store himages hgood hs) h.live
      ⟨rfl, rfl, rfl, fun hc => hc⟩ rfl rfl
    exact ⟨hinv, hgrows, fun u _ => rfl⟩
  | check guard =>
    simp only [perform, Option.some.injEq, Prod.mk.injEq] at hperform
    obtain ⟨-, rfl⟩ := hperform
    by_cases hholds : guard.holds m.shared = true
    · rw [if_pos hholds]
      obtain ⟨hinv, hgrows⟩ := h.next (m.setWriting t (some guard)) h.store.keeps h.temporary
        (fun u guard' hu => by
          simp only [Memory.setWriting] at hu
          by_cases hut : u = t
          · subst hut
            rw [Function.update_self, Option.some.injEq] at hu
            rw [← hu]
            exact hholds
          · rw [Function.update_of_ne hut] at hu
            exact h.live u guard' hu)
        ⟨rfl, rfl, rfl, fun hc => hc⟩ rfl rfl
      exact ⟨hinv, hgrows, fun u hu => Function.update_of_ne hu ..⟩
    · rw [if_neg hholds]
      exact ⟨h, .refl m, fun u _ => rfl⟩
  | discard =>
    simp only [perform, Option.some.injEq, Prod.mk.injEq] at hperform
    obtain ⟨-, rfl⟩ := hperform
    obtain ⟨hinv, hgrows⟩ := h.next { m with temporary := none } h.store.keeps
      (fun s hs => by simp at hs) h.live ⟨rfl, rfl, rfl, fun hc => hc⟩ rfl rfl
    exact ⟨hinv, hgrows, fun u _ => rfl⟩
  | rename =>
    simp only [perform, hmay.1.committed] at hperform
    cases htemporary : m.temporary with
    | none =>
      simp only [htemporary, Option.some.injEq, Prod.mk.injEq] at hperform
      obtain ⟨-, rfl⟩ := hperform
      exact ⟨h, .refl m, fun u _ => rfl⟩
    | some s =>
      simp only [htemporary, Option.some.injEq, Prod.mk.injEq] at hperform
      obtain ⟨-, rfl⟩ := hperform
      obtain ⟨hinv, hgrows⟩ := h.next
        { m.setStore { m.store with durable := s } with temporary := none }
        (h.temporary s htemporary) (fun s hs => by simp at hs) h.live ⟨rfl, rfl, rfl, fun hc => hc⟩ rfl rfl
      exact ⟨hinv, hgrows, fun u _ => rfl⟩
  | syncDirectory =>
    simp only [perform, Option.some.injEq, Prod.mk.injEq] at hperform
    obtain ⟨-, rfl⟩ := hperform
    exact ⟨h, .refl m, fun u _ => rfl⟩
  | recheck guard =>
    simp only [perform, Option.some.injEq, Prod.mk.injEq] at hperform
    obtain ⟨-, rfl⟩ := hperform
    obtain ⟨hinv, hgrows⟩ := h.next (m.setWriting t none) h.store.keeps h.temporary
      (fun u guard' hu => by
        simp only [Memory.setWriting] at hu
        by_cases hut : u = t
        · subst hut
          simp at hu
        · rw [Function.update_of_ne hut] at hu
          exact h.live u guard' hu)
      ⟨rfl, rfl, rfl, fun hc => hc⟩ rfl rfl
    exact ⟨hinv, hgrows, fun u hu => Function.update_of_ne hu ..⟩
  | poison => exact hgood.elim
  | returns result =>
    simp only [perform, Option.some.injEq, Prod.mk.injEq] at hperform
    obtain ⟨-, rfl⟩ := hperform
    have hgrows : Grows id m { m with returned := m.returned ++ [(t, result)] } :=
      ⟨.refl id _, fun hc => hc, fun _ _ hc => hc, List.subset_append_left _ _⟩
    refine ⟨{ h with returned := fun entry hentry => ?_ }, hgrows, fun u _ => rfl⟩
    rcases List.mem_append.mp hentry with hold | hnew
    · exact (h.returned entry hold).grows hgrows
    · rw [List.mem_singleton.mp hnew]
      exact hgood

variable (E ownerUid requestLifetime id) in
/-- The application, where only what the conditions allow happens. -/
noncomputable def calmMachine : Machine StepAct StepAns Memory Input ℕ Restart Call :=
  (Denials.machine E ownerUid requestLifetime).restrict (undisturbed E ownerUid id)

variable (E ownerUid requestLifetime id) in
/-- **The discipline of these calls.** -/
noncomputable def discipline : Discipline (calmMachine E ownerUid requestLifetime id) where
  inv := Inv E ownerUid id
  rely := Rely id
  grows := Grows id
  good := Good ownerUid id
  rely_refl _ m := ⟨.refl m, rfl⟩
  rely_trans _ _ _ _ h h' := ⟨h.toGrows.trans h'.toGrows, h'.writing.trans h.writing⟩
  rely_grows _ _ _ h := h.toGrows
  perform _ _ _ _ _ _ h hgood hperform := by
    obtain ⟨hact, hmay⟩ := Machine.restrict_perform hperform
    obtain ⟨hinv, hgrows, hwriting⟩ := keeps_perform h hgood hmay hact
    exact ⟨hinv, hgrows, fun u hu => ⟨hgrows, hwriting u hu⟩⟩
  spawned t call m := m.called t = some call ∧ Concerns ownerUid id call
  spawn t call m m₁ h hspawn := by
    obtain ⟨hspawn, hcall⟩ := Machine.restrict_spawn hspawn
    simp only [Denials.machine] at hspawn
    split_ifs at hspawn with hnew
    have hnone : m.called t = none := by simpa using hnew
    obtain rfl := Option.some.inj hspawn
    have hgrows : Grows id m { m with called := Function.update m.called t (some call) } := by
      refine ⟨.refl id _, fun hc => hc, fun u call' hc => ?_, fun _ h => h⟩
      by_cases hut : u = t
      · subst hut
        rw [hnone] at hc
        exact absurd hc (by simp)
      · simpa [Function.update_of_ne hut] using hc
    exact ⟨{ h with returned := fun entry hentry => (h.returned entry hentry).grows hgrows },
      ⟨by simp, hcall⟩, fun u _ => ⟨hgrows, rfl⟩⟩
  world elapsed m h := by
    simp only [calmMachine, Machine.restrict]
    split_ifs with hcalm
    · have hgrows : Grows id m ((Denials.machine E ownerUid requestLifetime).world elapsed m) :=
        ⟨.refl id _, fun hc => hc, fun _ _ hc => hc, fun _ h => h⟩
      exact ⟨{ h with
        live := fun t guard hw => hcalm t guard hw (h.live t guard hw)
        returned := fun entry hentry => (h.returned entry hentry).grows hgrows },
        fun u => ⟨hgrows, rfl⟩⟩
    · exact ⟨h, fun u => ⟨.refl m, rfl⟩⟩
  abandon _ m h := ⟨h, fun _ _ => ⟨.refl m, rfl⟩⟩
  restart _ _ h := h

end Discipline

/-! ## Programs step by step -/

section Embedding

variable {ε δ α β : Type}

/-- INTERNAL: a program made of two, step by step. -/
theorem embed_bind (p : Prog Act Ans α) (f : α → Prog Act Ans β) :
    embed (p >>= f) = embed p >>= fun value => embed (f value) := by
  induction p with
  | done value => rfl
  | act a next ih =>
    simp only [Prog.act_bind, embed]
    exact congrArg _ (funext ih)

/-- INTERNAL: a fallible program made of two, step by step. -/
theorem lift_bind (x : App ε α) (f : α → App ε β) : lift (x >>= f) = lift x >>= fun value => lift (f value) := by
  refine ExceptT.ext ?_
  simp only [lift, ExceptT.run_bind, ExceptT.run_mk, embed_bind]
  congr 1
  funext result
  cases result <;> rfl

theorem lift_attempt (x : App ε α) : lift (attempt x : App δ (Except ε α)) = attemptStep (lift x) := by
  refine ExceptT.ext ?_
  exact embed_bind x.run fun result => Prog.done (Except.ok (ε := δ) result)

end Embedding

section Programs

variable {E : Externals} {ownerUid : UInt32} {requestLifetime : ℕ} {id : String} {t : ℕ} {ε δ α β : Type}

variable (E ownerUid requestLifetime id t) in
/-- The program keeps to the discipline wherever it starts. -/
def Fine (x : StepApp ε α) : Prop :=
  Spec (discipline E ownerUid requestLifetime id) t (fun _ => True) x (fun _ _ => True) fun _ => True

theorem stable_true : Stable (discipline E ownerUid requestLifetime id) t fun _ => True :=
  fun _ _ _ _ _ => trivial

/-- INTERNAL: a program of the application that takes only common actions. -/
theorem fine_lift {x : App ε α} (h : Within Common x) : Fine E ownerUid requestLifetime id t (lift x) := by
  have honly : ∀ p : Prog Act Ans (Except ε α), Prog.Only Common p →
      Triple (discipline E ownerUid requestLifetime id) t (fun _ => True) (embed p)
        (Ends (fun _ _ => True) fun _ => True) := by
    intro p
    induction p with
    | done value =>
      exact fun _ => Triple.done stable_true fun _ _ _ => by cases value <;> trivial
    | act a next ih =>
      intro hp
      exact Triple.act (fun _ _ => True) stable_true (fun _ _ _ => Or.inl hp.1) (fun _ _ _ _ _ _ _ => trivial)
        fun answer => ih answer (hp.2 answer)
  exact honly x.run h

theorem fine_step {a : StepAct} (h : ∀ m, Good ownerUid id t a m) :
    Fine E ownerUid requestLifetime id t (step a : StepApp ε (StepAns a)) :=
  Spec.act stable_true (fun _ => stable_true) (fun m _ _ => h m) fun _ _ _ _ _ _ _ => trivial

theorem Fine.bind {x : StepApp ε α} {f : α → StepApp ε β} (hx : Fine E ownerUid requestLifetime id t x)
    (hf : ∀ value, Fine E ownerUid requestLifetime id t (f value)) :
    Fine E ownerUid requestLifetime id t (x >>= f) := Spec.bind stable_true hx hf

theorem fine_pure (value : α) : Fine E ownerUid requestLifetime id t (pure value : StepApp ε α) :=
  Spec.pure stable_true fun _ _ _ => trivial

theorem fine_throw (e : ε) : Fine E ownerUid requestLifetime id t (throw e : StepApp ε α) :=
  Spec.throw stable_true fun _ _ _ => trivial

/-- INTERNAL: one of two programs. -/
theorem Fine.ite {c : Prop} [Decidable c] {x y : StepApp ε α} (hx : Fine E ownerUid requestLifetime id t x)
    (hy : Fine E ownerUid requestLifetime id t y) :
    Fine E ownerUid requestLifetime id t (if c then x else y) := by
  split_ifs
  · exact hx
  · exact hy

theorem Fine.attempt {x : StepApp ε α} (h : Fine E ownerUid requestLifetime id t x) :
    Fine E ownerUid requestLifetime id t (attemptStep x : StepApp δ (Except ε α)) :=
  Triple.bind h fun result => Triple.done (fun _ _ _ _ _ => by cases result <;> trivial) fun _ _ _ => trivial

/-- INTERNAL: the scope of the gate. -/
theorem Fine.withTryGate {busy poisoned : ε} {body : StepApp ε α}
    (h : Fine E ownerUid requestLifetime id t body) :
    Fine E ownerUid requestLifetime id t (withTryGate busy poisoned body) := by
  refine (fine_lift (.act (a := .tryAcquire .gate) trivial)).bind fun taken => ?_
  cases taken with
  | acquired =>
    refine h.attempt.bind fun result => ?_
    exact (fine_lift (.act (a := .release .gate) trivial)).bind fun _ => fine_lift (.raise result)
  | busy => exact fine_throw _
  | poisoned => exact fine_throw _

/-- INTERNAL: a rejection as unavailable closes admission. -/
theorem Fine.closing {x : StepApp AgentRejection α} (h : Fine E ownerUid requestLifetime id t x) :
    Fine E ownerUid requestLifetime id t (closingIfUnavailable x) := by
  refine h.attempt.bind fun result => ?_
  split
  · exact (fine_lift within_closeAdmission).bind fun _ => fine_lift (.raise _)
  · exact fine_lift (.raise _)

theorem stable_writing (guard : Guard) :
    Stable (discipline E ownerUid requestLifetime id) t fun m => m.writing t = some guard :=
  fun _ _ hrely _ hw => hrely.writing.trans hw

/-- INTERNAL: the first check. -/
theorem spec_check (guard : Guard) : Spec (discipline E ownerUid requestLifetime id) t (fun _ => True)
    (step (.check guard) : StepApp ε Bool) (fun answer m => answer = true → m.writing t = some guard)
    fun _ => True := by
  refine Spec.act stable_true (fun answer m m₁ hrely hi hw hanswer => stable_writing guard m m₁ hrely hi (hw hanswer))
    (fun _ _ _ => trivial) fun m input answer m₁ _ _ hperform hanswer => ?_
  obtain ⟨hact, -⟩ := Machine.restrict_perform hperform
  simp only [Denials.machine, perform, Option.some.injEq, Prod.mk.injEq] at hact
  rw [hanswer] at hact
  rw [← hact.2, hact.1]
  simp [Memory.setWriting]

/-- INTERNAL: the rename and the sync are between the checks, and the sync succeeds. -/
theorem spec_sync (guard : Guard) : Spec (discipline E ownerUid requestLifetime id) t
    (fun m => m.writing t = some guard) (step .syncDirectory : StepApp ε Bool)
    (fun answer m => answer = true ∧ m.writing t = some guard) fun _ => True := by
  refine Spec.act (stable_writing guard) (fun answer m m₁ hrely hi hw => ⟨hw.1, stable_writing guard m m₁ hrely hi hw.2⟩)
    (fun _ _ _ => trivial) fun m input answer m₁ _ hw hperform => ?_
  obtain ⟨hact, hmay⟩ := Machine.restrict_perform hperform
  simp only [Denials.machine, perform, Option.some.injEq, Prod.mk.injEq, hmay.1.committed, decide_true] at hact
  rw [← hact.2]
  exact ⟨hact.1.symm, hw⟩

/-- INTERNAL: the rename. -/
theorem spec_rename (guard : Guard) : Spec (discipline E ownerUid requestLifetime id) t
    (fun m => m.writing t = some guard) (step .rename : StepApp ε Bool)
    (fun _ m => m.writing t = some guard) fun _ => True := by
  refine Spec.act (stable_writing guard) (fun _ => stable_writing guard) (fun _ _ _ => trivial)
    fun m input answer m₁ _ hw hperform => ?_
  obtain ⟨hact, hmay⟩ := Machine.restrict_perform hperform
  simp only [Denials.machine, perform, hmay.1.committed] at hact
  cases htemporary : m.temporary with
  | none =>
    simp only [htemporary, Option.some.injEq, Prod.mk.injEq] at hact
    rw [← hact.2]
    exact hw
  | some s =>
    simp only [htemporary, Option.some.injEq, Prod.mk.injEq] at hact
    rw [← hact.2]
    exact hw

/-- INTERNAL: the second check finds what the first found. -/
theorem spec_recheck (guard : Guard) : Spec (discipline E ownerUid requestLifetime id) t
    (fun m => m.writing t = some guard) (step (.recheck guard) : StepApp ε Bool)
    (fun answer _ => answer = true) fun _ => True := by
  refine Spec.act (stable_writing guard) (fun _ _ _ _ _ h => h) (fun _ _ hw => hw)
    fun m input answer m₁ hi hw hperform => ?_
  obtain ⟨hact, -⟩ := Machine.restrict_perform hperform
  simp only [Denials.machine, perform, Option.some.injEq, Prod.mk.injEq] at hact
  rw [← hact.1]
  exact hi.live t guard hw

/-- INTERNAL: **a guarded write finds its authorization at its second check**, and never poisons
the store. -/
theorem fine_guardedWrite {op : Op} (hop : Guarded op) (guard : Guard) :
    Fine E ownerUid requestLifetime id t (guardedWrite op guard) := by
  refine (fine_step (a := .prepare op) fun _ => hop).bind fun answer => ?_
  refine (fine_lift (.raise answer)).bind fun prepared => ?_
  refine Fine.ite (fine_pure _) (Spec.bind stable_true (spec_check guard) fun checked => ?_)
  cases checked with
  | false =>
    have hdiscard : Fine E ownerUid requestLifetime id t (do
        step .discard
        throw (op.writeError .expiredAccessRequest) : StepApp op.Error op.Value) :=
      (fine_step (a := .discard) fun _ => trivial).bind fun _ => fine_throw _
    exact hdiscard.conseq (fun _ _ _ => trivial) (fun _ _ _ _ => trivial) fun _ _ _ => trivial
  | true =>
    refine Spec.conseq (P := fun m => m.writing t = some guard) ?_ (fun m _ hw => hw rfl)
      (fun _ _ _ h => h) fun _ _ h => h
    refine Spec.bind stable_true (spec_rename guard) fun renamed => ?_
    cases renamed with
    | false => exact Spec.throw (stable_writing guard) fun _ _ _ => trivial
    | true =>
      refine Spec.bind stable_true (spec_sync guard) fun synced => ?_
      cases synced with
      | false => exact fun m _ hw => absurd hw.1 (by simp)
      | true =>
        refine Spec.bind stable_true ((spec_recheck guard).conseq (fun _ _ hw => hw.2) (fun _ _ _ h => h)
          fun _ _ h => h) fun authorized => ?_
        cases authorized with
        | false => exact fun m _ hw => absurd hw (by simp)
        | true => exact (fine_pure _).conseq (fun _ _ _ => trivial) (fun _ _ _ h => h) fun _ _ h => h

/-- INTERNAL: what a submission does before its write. -/
theorem within_openWindow (uid : UInt32) (groups : List UInt32) (input : SignedSubmission) :
    Within Common (openWindow E ownerUid requestLifetime uid groups input) := by
  refine .bind (.adapt _ within_admission) fun _ => .bind (.adapt _ within_expireRequests) fun _ => ?_
  refine .bind (.act trivial) fun authority => .bind (.act trivial) fun epoch => .ite trivial ?_
  refine .bind (.act trivial) fun result => .bind (.ofExcept ..) fun s => .bind (.raise _) fun owner => ?_
  refine .bind (.adapt _ (within_agentToken _)) fun token => .bind (within_tokenLive _) fun live => .ite trivial ?_
  refine .bind (.act trivial) fun now => .bind (.okOr ..) fun deadline => .bind (.act trivial) fun wall => ?_
  refine .bind (.ofExcept ..) fun now => .bind (.okOr ..) fun expires => .bind (.okOr ..) fun session => ?_
  trivial

/-- INTERNAL: a request expires after it was made. -/
theorem yields_openWindow (hlifetime : 1000000000 ≤ requestLifetime) (uid : UInt32) (groups : List UInt32)
    (input : SignedSubmission) :
    Yields (fun r => r.2.1 < r.2.2.1) (openWindow E ownerUid requestLifetime uid groups input) := by
  refine .bind (yields_true _) fun _ _ => .bind (yields_true _) fun _ _ => ?_
  refine .bind (yields_true _) fun authority _ => .bind (yields_true _) fun epoch _ => .ite (.throw _) ?_
  refine .bind (yields_true _) fun _ _ => .bind (yields_true _) fun s _ => .bind (yields_true _) fun owner _ => ?_
  refine .bind (yields_true _) fun token _ => .bind (yields_true _) fun live _ => .ite (.throw _) ?_
  refine .bind (yields_true _) fun now _ => .bind (yields_true _) fun deadline _ => .bind (yields_true _) fun _ _ => ?_
  refine .bind (yields_true _) fun now _ => .bind .okOr fun expires hexpires => ?_
  refine .bind (yields_true _) fun session _ => .pure ?_
  have hseconds : 0 < requestLifetime / 1000000000 := Nat.div_pos hlifetime (by decide)
  simp only [checkedAdd] at hexpires
  split_ifs at hexpires
  rw [← Option.some.inj hexpires]
  show now < now + _
  omega

/-- INTERNAL: a program of common actions answers what its code tells. -/
theorem spec_yields {x : App ε α} {Q : α → Prop} (h : Within Common x) (hQ : Yields Q x) :
    Spec (discipline E ownerUid requestLifetime id) t (fun _ => True) (lift x) (fun value _ => Q value)
      fun _ => True := by
  have honly : ∀ p : Prog Act Ans (Except ε α), Prog.Only Common p →
      Leaves (fun result => ∀ value, result = .ok value → Q value) p →
      Triple (discipline E ownerUid requestLifetime id) t (fun _ => True) (embed p)
        (Ends (fun value _ => Q value) fun _ => True) := by
    intro p
    induction p with
    | done result =>
      intro _ hq
      refine Triple.done stable_true fun _ _ _ => ?_
      cases result with
      | ok value => exact hq value rfl
      | error e => trivial
    | act a next ih =>
      intro hp hq
      exact Triple.act (fun _ _ => True) stable_true (fun _ _ _ => Or.inl hp.1) (fun _ _ _ _ _ _ _ => trivial)
        fun answer => ih answer (hp.2 answer) (hq answer)
  exact honly x.run h hQ

/-- INTERNAL: **a submission keeps to the discipline.** -/
theorem fine_submitSigned (hlifetime : 1000000000 ≤ requestLifetime) (uid : UInt32) (groups : List UInt32)
    (input : SignedSubmission) : Fine E ownerUid requestLifetime id t
      (submitSigned E ownerUid requestLifetime uid groups input) := by
  refine Fine.closing ((fine_lift (.act (a := .loadClosing) trivial)).bind fun closing => ?_)
  refine .ite (fine_throw _) (Fine.withTryGate ?_)
  refine Spec.bind stable_true (spec_yields (within_openWindow uid groups input)
    (yields_openWindow hlifetime uid groups input)) fun (owner, now, expires, window) => ?_
  by_cases htime : now < expires
  · have hrest : Fine E ownerUid requestLifetime id t (do
        if !(← lift (act (.acquire .releaseGate none))) then throw .unavailable
        let review ← attemptStep (do
          let authorized ← lift (checkWindow window)
          guardedWrite (.createSigned owner input now expires authorized) ⟨window.token, some window⟩)
        lift (act (.release .releaseGate))
        let review ← lift (raise review)
        lift (launchSigned owner window review.id)
        pure review.id : StepApp AgentRejection String) := by
      refine (fine_lift (.act (a := .acquire .releaseGate none) trivial)).bind fun taken => ?_
      refine .ite (fine_throw _) (Fine.bind (Fine.attempt ?_) fun review => ?_)
      · refine (fine_lift ?_).bind fun authorized => ?_
        · refine .bind (within_tokenLive _) fun live => .ite trivial ?_
          exact .bind (within_live window) fun live => .ite trivial (within_live window)
        · have hguarded : Guarded (.createSigned owner input now expires authorized) := htime
          exact fine_guardedWrite hguarded _
      · refine (fine_lift (.act (a := .release .releaseGate) trivial)).bind fun _ => ?_
        refine (fine_lift (.raise review)).bind fun review => ?_
        exact (fine_lift (within_launchSigned owner window review.id)).bind fun _ => fine_pure _
    exact hrest.conseq (fun _ _ _ => trivial) (fun _ _ _ h => h) fun _ _ h => h
  · exact fun m _ hm => absurd hm htime

/-- INTERNAL: what a status query does before its write. -/
theorem within_authenticate (uid : UInt32) (groups : List UInt32) (query : SignedStatusQuery) :
    Within Common (do
      let s ← ofExcept (fun _ => AgentRejection.unavailable) (← act .readState)
      let owner ← raise (authenticateStatusQuery E ownerUid s uid groups query)
      let token ← (agentToken owner.bindingId).adapt .ofDirect
      if !(← tokenLive (some token)) then throw .unauthorized
      if ← act .loadClosing then throw .unavailable
      refresh
      pure (owner, token)) := by
  refine .bind (.act trivial) fun result => .bind (.ofExcept ..) fun s => .bind (.raise _) fun owner => ?_
  refine .bind (.adapt _ (within_agentToken _)) fun token => .bind (within_tokenLive _) fun live => ?_
  exact .ite trivial (.bind (.act trivial) fun closing => .ite trivial (.bind within_refresh fun _ => trivial))

/-- INTERNAL: **a status query keeps to the discipline.** -/
theorem fine_signedAgentStatus (uid : UInt32) (groups : List UInt32) (query : SignedStatusQuery)
    (rounds : ℕ) : Fine E ownerUid requestLifetime id t (signedAgentStatus E ownerUid uid groups query rounds) := by
  refine Fine.closing ((fine_lift (.act (a := .loadClosing) trivial)).bind fun closing => ?_)
  refine .ite (fine_throw _) (Fine.withTryGate ?_)
  refine (fine_lift (within_authenticate uid groups query)).bind fun (owner, token) => ?_
  have hguarded : Guarded (.consumeStatusQuery owner query) := trivial
  refine (fine_guardedWrite hguarded _).bind fun _ => fine_lift ?_
  exact .bind within_refresh fun _ => within_snapshot ..

/-! ### The revocation -/

theorem lasting_revoked (view : AgentBindingView) :
    Lasting (discipline E ownerUid requestLifetime id) fun m => RevokedAs id view m.store.durable :=
  fun _ _ hgrows _ h => hgrows.agent.revoked view h

theorem lasting_const (fact : Prop) : Lasting (discipline E ownerUid requestLifetime id) fun _ => fact :=
  fun _ _ _ _ h => h

theorem lasting_and {P Q : Memory → Prop} (hP : Lasting (discipline E ownerUid requestLifetime id) P)
    (hQ : Lasting (discipline E ownerUid requestLifetime id) Q) :
    Lasting (discipline E ownerUid requestLifetime id) fun m => P m ∧ Q m :=
  fun m m₁ hgrows hi h => ⟨hP m m₁ hgrows hi h.1, hQ m m₁ hgrows hi h.2⟩

variable {P R : Memory → Prop} {Q : α → Memory → Prop}

/-- INTERNAL: an action that every call may take keeps what lasts, and tells something. -/
theorem spec_tells {a : Act} (fact : Ans a → Prop) (ha : Common a)
    (hP : Lasting (discipline E ownerUid requestLifetime id) P)
    (hfact : ∀ m input answer m₁, Inv E ownerUid id m → P m → input.poisoned = false → input.number.isOk = true →
      performAct E ownerUid t a input m.shared = some (answer, m₁) → fact answer) :
    Spec (discipline E ownerUid requestLifetime id) t P (lift (act a) : StepApp ε (Ans a))
      (fun answer m => fact answer ∧ P m) R := by
  refine Spec.act hP.stable (fun answer => (lasting_and (lasting_const _) hP).stable) (fun _ _ _ => Or.inl ha)
    fun m input answer m₁ hi hm hperform => ?_
  have hgrows := ((discipline E ownerUid requestLifetime id).perform t _ m input answer m₁ hi (Or.inl ha) hperform)
  obtain ⟨hact, hmay⟩ := Machine.restrict_perform hperform
  simp only [Denials.machine, perform, Option.map_eq_some_iff, Prod.mk.injEq] at hact
  obtain ⟨⟨answer', shared⟩, hact, rfl, -⟩ := hact
  exact ⟨hfact m input _ shared hi hm hmay.1.unpoisoned hmay.1.clock hact, hP m m₁ hgrows.2.1 hgrows.1 hm⟩

theorem spec_keeps {a : Act} (ha : Common a) (hP : Lasting (discipline E ownerUid requestLifetime id) P) :
    Spec (discipline E ownerUid requestLifetime id) t P (lift (act a) : StepApp ε (Ans a)) (fun _ => P) R :=
  (spec_tells (fun _ => True) ha hP fun _ _ _ _ _ _ _ _ _ => trivial).conseq (fun _ _ h => h)
    (fun _ _ _ h => h.2) fun _ _ h => h

theorem spec_absurd {x : StepApp ε α} (h : ∀ m, ¬ P m) :
    Spec (discipline E ownerUid requestLifetime id) t P x Q R := fun m _ hm => absurd hm (h m)

/-- INTERNAL: no mutex is poisoned. -/
theorem spec_acquire {l : Lock} (hP : Lasting (discipline E ownerUid requestLifetime id) P) :
    Spec (discipline E ownerUid requestLifetime id) t P (lift (act (.acquire l none)) : StepApp ε Bool)
      (fun taken m => taken = true ∧ P m) R := by
  refine spec_tells (a := .acquire l none) (fun taken => taken = true) trivial hP fun m input answer m₁ _ _ hpoisoned _ hact => ?_
  simp only [performAct, hpoisoned, Bool.false_eq_true, if_false] at hact
  split_ifs at hact
  simp only [Option.some.injEq, Prod.mk.injEq] at hact
  exact hact.1.symm

/-- INTERNAL: **a body that does not fail does not fail in the scope of a mutex.** -/
theorem spec_withLock {l : Lock} {e : ε} {body : App ε α}
    (hP : Lasting (discipline E ownerUid requestLifetime id) P)
    (hQ : ∀ value, Lasting (discipline E ownerUid requestLifetime id) (Q value))
    (hbody : Spec (discipline E ownerUid requestLifetime id) t P (lift body) Q fun _ => False) :
    Spec (discipline E ownerUid requestLifetime id) t P (lift (withLock l e body)) Q fun _ => False := by
  unfold withLock
  rw [lift_bind]
  refine Spec.bind (lasting_const _).stable (spec_acquire hP) fun taken => ?_
  cases taken with
  | false => exact spec_absurd fun m hm => absurd hm.1 (by simp)
  | true =>
    simp only [if_true, holding, lift_bind]
    refine Spec.bind (Q := fun result m => ∃ value, result = .ok value ∧ Q value m) (lasting_const _).stable ?_
      fun result => ?_
    · rw [lift_attempt]
      refine Spec.attempt (fun result m m₁ hrely hi h => ?_) ?_
      · obtain ⟨value, rfl, hm⟩ := h
        exact ⟨value, rfl, (hQ value).stable m m₁ hrely hi hm⟩
      · refine Triple.conseq hbody (fun m _ hm => hm.2) fun result m _ hm => ?_
        cases result with
        | ok value => exact ⟨value, rfl, hm⟩
        | error e => exact hm.elim
    · cases result with
      | error e => exact spec_absurd fun m hm => by obtain ⟨value, heq, -⟩ := hm; simp at heq
      | ok value =>
        refine Spec.conseq (P := Q value) ?_ (fun m _ hm => ?_) (fun _ _ _ h => h) fun _ _ h => h
        · exact Spec.bind (lasting_const _).stable (spec_keeps trivial (hQ value)) fun _ =>
            Spec.pure (hQ value).stable fun _ _ hm => hm
        · obtain ⟨value', heq, hm⟩ := hm
          rw [Except.ok.inj heq]
          exact hm

/-- INTERNAL: the token of the agent is denied. -/
theorem spec_denyToken : Spec (discipline E ownerUid requestLifetime id) t (fun _ => True)
    (lift (denyToken id none)) (fun _ _ => True) fun _ => False := by
  have htrue : Lasting (discipline E ownerUid requestLifetime id) fun _ => True := lasting_const True
  refine spec_withLock htrue (fun _ => htrue) (spec_withLock htrue (fun _ => htrue) ?_)
  rw [lift_bind]
  refine Spec.bind (lasting_const _).stable (spec_tells (a := .lookupToken id)
    (fun cell => cell.isSome = true) trivial htrue fun m input answer m₁ hi _ _ _ hact => ?_) fun cell => ?_
  · simp only [performAct, Option.some.injEq, Prod.mk.injEq] at hact
    rw [← hact.1]
    exact hi.token
  · cases cell with
    | none => exact spec_absurd fun m hm => absurd hm.1 (by simp)
    | some cell =>
      exact (spec_keeps (a := .setFlag cell) trivial htrue).conseq (fun _ _ _ => trivial) (fun _ _ _ h => h)
        fun _ _ h => h

/-- INTERNAL: the provider records the revocation. -/
theorem spec_record (now : ℕ) : Spec (discipline E ownerUid requestLifetime id) t (fun _ => True)
    (lift (act (.provider (.revokeAgent ownerUid id now))) :
      StepApp ε (Except DirectRequestError AgentBindingView))
    (fun answer m => ∃ view, answer = .ok view ∧ RevokedAs id view m.store.durable) R := by
  refine Spec.act stable_true (fun answer m m₁ hrely hi h => ?_) (fun _ _ _ => Or.inr ⟨now, rfl⟩)
    fun m input answer m₁ hi _ hperform => ?_
  · obtain ⟨view, hanswer, hrevoked⟩ := h
    exact ⟨view, hanswer, hrely.agent.revoked view hrevoked⟩
  · obtain ⟨hact, hmay⟩ := Machine.restrict_perform hperform
    obtain ⟨⟨houtcome, hreadable, -, himages, -⟩, -⟩ := hmay
    obtain ⟨view, hview, hrevoked⟩ := revoke_succeeds hi.store now himages
    simp only [Denials.machine, perform, performAct, performProvider, Option.map_some, Option.some.injEq,
      Prod.mk.injEq, houtcome, hreadable] at hact
    refine ⟨view, ?_, ?_⟩
    · rw [← hact.1]
      exact hview
    · rw [← hact.2]
      exact hrevoked

/-- INTERNAL: no execution of the agent is registered. -/
theorem spec_affected (hP : Lasting (discipline E ownerUid requestLifetime id) P) :
    Spec (discipline E ownerUid requestLifetime id) t P
      (lift (withLock .executions .unavailable (do
        let active ← act .listExecutions
        cancelAll (active.filter (·.2.agentId = some id))) : App DirectRequestError (List String)))
      (fun affected m => affected = [] ∧ P m) fun _ => False := by
  refine spec_withLock hP (fun _ => lasting_and (lasting_const _) hP) ?_
  rw [lift_bind]
  refine Spec.bind (lasting_const _).stable (spec_tells (a := .listExecutions)
    (fun active => active.filter (·.2.agentId = some id) = []) trivial hP fun m input answer m₁ hi _ _ _ hact => ?_)
    fun active => ?_
  · simp only [performAct, Option.some.injEq, Prod.mk.injEq] at hact
    rw [← hact.1, List.filter_eq_nil_iff]
    exact fun entry hentry => by simpa using hi.executions entry hentry
  · by_cases hnone : active.filter (·.2.agentId = some id) = []
    · rw [hnone]
      exact Spec.pure (lasting_and (lasting_const _) hP).stable fun _ _ hm => ⟨rfl, hm.2⟩
    · exact spec_absurd fun m hm => hnone hm.1

/-- INTERNAL: **under the gate the revocation is recorded.** -/
theorem spec_revokeUnderGate : Spec (discipline E ownerUid requestLifetime id) t (fun _ => True)
    (lift (Denials.revokeUnderGate ownerUid id))
    (fun r m => r.2 = [] ∧ ∃ view, r.1 = .ok view ∧ RevokedAs id view m.store.durable) fun _ => False := by
  have htrue : Lasting (discipline E ownerUid requestLifetime id) fun _ => True := lasting_const True
  have hlast : ∀ result : Except DirectRequestError AgentBindingView,
      Lasting (discipline E ownerUid requestLifetime id)
        fun m => ∃ view, result = .ok view ∧ RevokedAs id view m.store.durable :=
    fun result m m₁ hgrows _ ⟨view, hresult, hrevoked⟩ => ⟨view, hresult, hgrows.agent.revoked view hrevoked⟩
  unfold Denials.revokeUnderGate
  rw [lift_bind]
  refine Spec.bind (lasting_const _).stable (spec_tells (a := .unixSeconds) (fun now => now.isOk = true) trivial
    htrue fun m input answer m₁ _ _ _ hnumber hact => ?_) fun now => ?_
  · simp only [performAct, Option.some.injEq, Prod.mk.injEq] at hact
    rw [← hact.1]
    exact hnumber
  · cases now with
    | error e => exact spec_absurd fun m hm => absurd hm.1 (by simp [Except.isOk, Except.toBool])
    | ok now =>
      simp only [lift_bind]
      refine Spec.bind (lasting_const _).stable ((spec_record now).conseq (fun _ _ _ => trivial)
        (fun _ _ _ h => h) fun _ _ h => h) fun result => ?_
      refine Spec.bind (lasting_const _).stable (spec_affected (hlast result)) fun affected => ?_
      exact Spec.pure (lasting_and (lasting_const _) (hlast result)).stable fun _ _ hm => hm

theorem lasting_closing : Lasting (discipline E ownerUid requestLifetime id) fun m => m.shared.closing = true :=
  fun _ _ hgrows _ h => hgrows.closing h

/-- INTERNAL: `closing` is read, and stays set. -/
theorem spec_loadClosing : Spec (discipline E ownerUid requestLifetime id) t (fun _ => True)
    (lift (act .loadClosing) : StepApp ε Bool) (fun closing m => closing = true → m.shared.closing = true) R := by
  refine Spec.act stable_true (fun closing m m₁ hrely hi h hc => hrely.closing (h hc)) (fun _ _ _ => Or.inl trivial)
    fun m input answer m₁ hi _ hperform hanswer => ?_
  obtain ⟨hact, -⟩ := Machine.restrict_perform hperform
  simp only [Denials.machine, perform, performAct, Option.map_some, Option.some.injEq, Prod.mk.injEq] at hact
  rw [← hact.2]
  exact hact.1.trans hanswer

theorem spec_within {x : App ε α} (h : Within Common x)
    (hP : Lasting (discipline E ownerUid requestLifetime id) P) :
    Spec (discipline E ownerUid requestLifetime id) t P (lift x) (fun _ => P) P := by
  have hframe := Spec.frame (fine_lift (E := E) (t := t) h) hP
  exact hframe.conseq (fun _ _ hm => ⟨trivial, hm⟩) (fun _ _ _ hm => hm.2) fun _ _ hm => hm.2

/-- INTERNAL: no cleanup is uncertain. -/
theorem spec_loadUncertain (hP : Lasting (discipline E ownerUid requestLifetime id) P) :
    Spec (discipline E ownerUid requestLifetime id) t P (lift (act .loadUncertain) : StepApp ε Bool)
      (fun answer m => answer = false ∧ P m) R := by
  refine spec_tells (a := .loadUncertain) (fun answer => answer = false) trivial hP
    fun m input answer m₁ hi _ _ _ hact => ?_
  simp only [performAct, Option.some.injEq, Prod.mk.injEq] at hact
  rw [← hact.1]
  exact hi.certain

/-- INTERNAL: a call that finds admission closed closes it. -/
theorem spec_closed (closing : Bool) : Spec (discipline E ownerUid requestLifetime id) t
    (fun m => closing = true → m.shared.closing = true)
    (lift (do
      if closing then
        closeAdmission
        throw .unavailable) : StepApp DirectRequestError Unit) (fun _ _ => True)
    fun m => m.shared.closing = true := by
  have hlast : Lasting (discipline E ownerUid requestLifetime id)
      fun m => closing = true → m.shared.closing = true := fun _ _ hgrows _ h hc => hgrows.closing (h hc)
  cases closing with
  | false => exact Spec.pure hlast.stable fun _ _ _ => trivial
  | true =>
    refine Spec.conseq (P := fun m => m.shared.closing = true) ?_ (fun _ _ h => h rfl) (fun _ _ _ h => h)
      fun _ _ h => h
    simp only [if_true, lift_bind]
    exact Spec.bind lasting_closing.stable (spec_within within_closeAdmission lasting_closing) fun _ =>
      Spec.throw lasting_closing.stable fun _ _ h => h

/-- INTERNAL: **the wait for no execution ends at once**, and fails only if admission is closed. -/
theorem spec_awaitAgentCleanup : Spec (discipline E ownerUid requestLifetime id) t (fun _ => True)
    (lift (awaitAgentCleanup [])) (fun _ _ => True) fun m => m.shared.closing = true := by
  have htrue : Lasting (discipline E ownerUid requestLifetime id) fun _ => True := lasting_const True
  unfold awaitAgentCleanup
  simp only [stillActive, List.any_nil, Bool.false_eq_true, if_false]
  rw [lift_bind]
  refine Spec.bind lasting_closing.stable (spec_acquire htrue) fun taken => ?_
  cases taken with
  | false => exact spec_absurd fun m hm => absurd hm.1 (by simp)
  | true =>
    refine Spec.conseq (P := fun _ => True) ?_ (fun _ _ _ => trivial) (fun _ _ _ h => h) fun _ _ h => h
    simp only [Bool.not_true, Bool.false_eq_true, if_false, lift_bind]
    refine Spec.bind lasting_closing.stable (spec_keeps (a := .listExecutions) trivial htrue) fun _ => ?_
    refine Spec.bind lasting_closing.stable (spec_keeps (a := .listExecutions) trivial htrue) fun _ => ?_
    refine Spec.bind lasting_closing.stable (spec_loadUncertain htrue) fun uncertain => ?_
    cases uncertain with
    | true => exact spec_absurd fun m hm => absurd hm.1 (by simp)
    | false =>
      simp only [Bool.false_eq_true, if_false, lift_bind]
      refine Spec.bind lasting_closing.stable (spec_loadClosing.conseq (fun _ _ _ => trivial) (fun _ _ _ h => h)
        fun _ _ h => h) fun closing => ?_
      have hlast : Lasting (discipline E ownerUid requestLifetime id)
          fun m => closing = true → m.shared.closing = true := fun _ _ hgrows _ h hc => hgrows.closing (h hc)
      exact Spec.bind lasting_closing.stable (spec_keeps trivial hlast) fun _ => spec_closed closing

/-- INTERNAL: what a revocation that was recorded does at its end. -/
theorem triple_finish (view : AgentBindingView) : Triple (discipline E ownerUid requestLifetime id) t
    (fun m => RevokedAs id view m.store.durable)
    (lift (do
      let complete ← attempt (ε := DirectRequestError) (awaitAgentCleanup [])
      let view ← raise (.ok view)
      if complete.isOk then pure view else throw DirectRequestError.unavailable)).run (Outcome id) := by
  have hlast : ∀ result, Lasting (discipline E ownerUid requestLifetime id) (Outcome id result) :=
    fun result m m₁ hgrows _ h => h.grows hgrows
  have hcomplete : ∀ complete : Except DirectRequestError Unit, Lasting (discipline E ownerUid requestLifetime id)
      fun m => (complete.isOk = true ∨ m.shared.closing = true) ∧ RevokedAs id view m.store.durable :=
    fun complete m m₁ hgrows _ h => ⟨h.1.imp_right hgrows.closing, hgrows.agent.revoked view h.2⟩
  rw [lift_bind, lift_attempt]
  refine Triple.bind (Spec.attempt (R := fun _ => False) (fun complete => (hcomplete complete).stable) ?_)
    fun complete => ?_
  · refine Triple.conseq (Spec.frame spec_awaitAgentCleanup (lasting_revoked view)) (fun _ _ hm => ⟨trivial, hm⟩)
      fun result m _ hm => ?_
    cases result with
    | ok value => exact ⟨Or.inl rfl, hm.2⟩
    | error e => exact ⟨Or.inr hm.1, hm.2⟩
  · cases complete with
    | error e => exact fun m _ hm => hm.elim
    | ok complete =>
      show Triple _ _ (fun m : Memory => (complete.isOk = true ∨ m.shared.closing = true) ∧
        RevokedAs id view m.store.durable) _ _
      cases complete with
      | ok _ => exact Triple.done (hcomplete _).stable fun m _ hm => ⟨view, hm.2, Or.inl rfl⟩
      | error e =>
        refine Triple.done (hcomplete _).stable fun m _ hm => ⟨view, hm.2, Or.inr ⟨rfl, ?_⟩⟩
        exact hm.1.resolve_left (by simp [Except.isOk, Except.toBool])

/-- INTERNAL: **the owner's revocation has an outcome.** -/
theorem triple_revokeAgent : Triple (discipline E ownerUid requestLifetime id) t (fun _ => True)
    (lift (Denials.revokeAgent ownerUid ownerUid id)).run (Outcome id) := by
  have hrecorded : ∀ r : Except DirectRequestError AgentBindingView × List String,
      Lasting (discipline E ownerUid requestLifetime id)
        fun m => r.2 = [] ∧ ∃ view, r.1 = .ok view ∧ RevokedAs id view m.store.durable :=
    fun r m m₁ hgrows _ ⟨hnone, view, hresult, hrevoked⟩ =>
      ⟨hnone, view, hresult, hgrows.agent.revoked view hrevoked⟩
  unfold Denials.revokeAgent
  simp only [checkOwner, ne_eq, not_true_eq_false, if_false]
  rw [lift_bind]
  have hpure : (lift (pure () : App DirectRequestError Unit)) = pure () := rfl
  rw [hpure, pure_bind, lift_bind]
  refine Triple.bind spec_denyToken fun denied => ?_
  cases denied with
  | error e => exact fun m _ hm => hm.elim
  | ok _ =>
    show Triple _ _ _ (lift _).run _
    rw [lift_bind]
    refine Triple.bind (Spec.conseq (spec_withLock (lasting_const True) hrecorded spec_revokeUnderGate)
      (fun _ _ _ => trivial) (fun _ _ _ h => h) fun _ _ h => h) fun recorded => ?_
    rcases recorded with e | ⟨result, affected⟩
    · exact fun m _ hm => hm.elim
    · show Triple _ _ (fun m : Memory => affected = [] ∧ ∃ view, result = .ok view ∧ RevokedAs id view m.store.durable)
        (lift _).run _
      rcases result with e | view
      · exact fun m _ hm => absurd hm.2 (by simp)
      · rcases affected with - | ⟨first, rest⟩
        · refine Triple.conseq (triple_finish view) (fun m _ hm => ?_) fun _ _ _ h => h
          obtain ⟨-, view', heq, hrevoked⟩ := hm
          rw [Except.ok.inj heq]
          exact hrevoked
        · exact fun m _ hm => absurd hm.1 (by simp)

/-! ## Every run -/

/-- A revocation that came to its end has returned. -/
def Returned (t : ℕ) (m : Memory) : Prop :=
  ∀ human id', m.called t = some (.revokeAgent human id' none) → ∃ result, (t, result) ∈ m.returned

/-- INTERNAL: a call other than a revocation. -/
theorem triple_fine {call : Call} {x : StepApp ε α} (h : Fine E ownerUid requestLifetime id t x)
    (hcall : ∀ human id', call ≠ .revokeAgent human id' none) :
    Triple (discipline E ownerUid requestLifetime id) t (fun m => m.called t = some call)
      (do let _ ← x.run) (fun _ => Returned t) := by
  have hlast : Lasting (discipline E ownerUid requestLifetime id) fun m => m.called t = some call :=
    fun _ _ hgrows _ hc => hgrows.called t call hc
  refine Triple.bind (Triple.conseq (Triple.frame h hlast) (fun _ _ hm => ⟨trivial, hm⟩)
    fun _ m _ hm => hm.2) fun _ => Triple.done hlast.stable fun m _ hm human id' hrevoke => ?_
  rw [hm, Option.some.injEq] at hrevoke
  exact absurd hrevoke (hcall human id')

/-- INTERNAL: **the code of every call keeps to the discipline.** -/
theorem triple_code (hlifetime : 1000000000 ≤ requestLifetime) (t : ℕ) (call : Call) :
    Triple (discipline E ownerUid requestLifetime id) t
      ((discipline E ownerUid requestLifetime id).spawned t call)
      (Denials.code E ownerUid requestLifetime call) (fun _ => Returned t) := by
  by_cases hconcerns : Concerns ownerUid id call
  · cases call with
    | revokeAgent human id' authorityBinding =>
      obtain ⟨rfl, rfl, rfl⟩ := hconcerns
      refine Triple.conseq ?_ (fun _ _ _ => trivial) fun _ _ _ h => h
      refine Triple.bind triple_revokeAgent fun result => ?_
      have hlast : Lasting (discipline E human requestLifetime id') fun m => (t, result) ∈ m.returned :=
        fun _ _ hgrows _ h => hgrows.returned h
      refine Triple.act (fun _ m => (t, result) ∈ m.returned)
        (fun m m₁ hrely _ h => Outcome.grows h hrely.toGrows) (fun _ _ h => h)
        (fun m input answer m₁ _ _ hperform => ?_) fun _ =>
          Triple.done hlast.stable fun m _ hm human' id'' _ => ⟨result, hm⟩
      obtain ⟨hact, -⟩ := Machine.restrict_perform hperform
      simp only [Denials.machine, perform, Option.some.injEq, Prod.mk.injEq] at hact
      rw [← hact.2]
      simp
    | submitSigned uid groups input =>
      exact Triple.conseq (triple_fine (fine_submitSigned hlifetime uid groups input) fun _ _ => by simp)
        (fun _ _ hm => hm.1) fun _ _ _ h => h
    | signedAgentStatus uid groups query rounds =>
      exact Triple.conseq (triple_fine (fine_signedAgentStatus uid groups query rounds) fun _ _ => by simp)
        (fun _ _ hm => hm.1) fun _ _ _ h => h
    | _ => exact hconcerns.elim
  · exact fun m _ hm => absurd hm.2 hconcerns

end Programs

/-- A process in which an enrolled agent can be revoked: its store is sound, the agent has a token,
and no execution of the agent is under way or was lost. -/
structure Ready (E : Externals) (ownerUid : UInt32) (id : String) (m : Shared) : Prop where
  store : StoreOk E ownerUid id m.authority.store
  token : (lookupKey m.agentTokens id).isSome = true
  executions : ∀ entry ∈ m.executions, entry.2.agentId ≠ some id
  certain : m.cleanupUncertain = false

namespace Overtaken

open VaultAccess.Analysis.Sample

/-- One digest for every document; every key and every signature is accepted. -/
def externals : Externals where
  sha256 _ := Vector.replicate 32 0
  verifyingKey _ := true
  verifyStrict _ _ _ := true

/-- The marker of an earlier submission. -/
def marker : String := "0909090909090909090909090909090909090909090909090909090909090909"

/-- The session is open, and the agent has one pending request. -/
def asking : Shared := askedMemory externals marker

/-- INTERNAL: the state with the agent's request is sound. -/
theorem stateInv_asked : StateInv externals 1000 (asked externals marker) := by
  have haccepting : Accepting externals := ⟨fun _ => rfl, fun _ _ _ => rfl⟩
  obtain ⟨_, -, hregistered⟩ := call_of_handed externals (stateInv_recovered externals 3) (Or.inl rfl)
    (registers externals 3) trivial trivial
  obtain ⟨_, -, hprovisioned⟩ := call_of_handed externals hregistered (Or.inr rfl) (provisions externals 3)
    trivial trivial
  have hargs : CallerArgs env (atEpoch 3 (provisioned externals)) (.pairAgent 1000 pairing 100) :=
    fun _ _ b hb => absurd hb List.not_mem_nil
  have htime : RecordsWhileExecuting (atEpoch 3 (provisioned externals)) (.pairAgent 1000 pairing 100) := trivial
  obtain ⟨-, hpaired⟩ := call_commits hprovisioned (imagesUnchanged externals _ (Or.inr rfl)) hargs htime
    (pairs externals haccepting)
  have hstep : StateStep externals 1000 env True (paired externals) (asked externals marker) := by
    refine .create 2000 (some (owner externals)) (some marker) (policy externals) [] [] 100 101 random ?_ ?_ rfl
      (fun m hm => ?_) (fun o ho => by rw [← Option.some.inj ho]; rfl) fun _ => ⟨by decide, by simp, fun r hr => ?_⟩
    · simp [agentCurrent, paired, owner, AgentOwner.matches, agent, AgentBinding.enabledCurrent]
    · exact List.mem_singleton.mpr rfl
    · rw [← Option.some.inj hm]
      exact ⟨rfl, by decide +kernel, rfl⟩
    · exact absurd hr List.not_mem_nil
  exact (hpaired.step (imagesUnchanged externals _ (Or.inr rfl)) hstep).1

/-- The agent. -/
abbrev agentId : String := newRandom random

/-- INTERNAL: the agent can be revoked. -/
theorem ready_asking : Ready externals 1000 agentId asking := by
  have hfind : [agent externals].find? (·.id = agentId) = some (agent externals) := by simp [agent, agentId]
  exact {
    store := ⟨stateInv_asked, rfl, agent externals, hfind⟩
    token := by decide +kernel
    executions := fun entry hentry => absurd hentry List.not_mem_nil
    certain := rfl }

/-- The query of the agent about its request. -/
def query : SignedStatusQuery :=
  ⟨1, "status", newRandom random, encodeUrlSafe (List.replicate 32 9), requestId,
    encodeUrlSafe (List.replicate 64 0)⟩

/-- A thread takes its turns, and everything outside goes well. -/
def turns (count t : ℕ) : List (SystemEvent Input ℕ Restart Call) := List.replicate count (.run t (good env))

/-- The agent's query has renamed the file when the revocation publishes the agent's token. -/
def overtaking : List (SystemEvent Input ℕ Restart Call) :=
  [.spawn 1 (.signedAgentStatus 2000 [2000] query 1), .spawn 2 (.revokeAgent 1000 agentId none)] ++
    (turns 19 1 ++ turns 6 2 ++ turns 30 1 ++ turns 40 2)

/-- The revocation by itself. -/
def alone : List (SystemEvent Input ℕ Restart Call) :=
  [.spawn 2 (.revokeAgent 1000 agentId none)] ++ turns 40 2

/-- The machine the agent runs on. -/
abbrev process : Machine StepAct StepAns Memory Input ℕ Restart Call := Denials.machine externals 1000 1000000000

/-- A turn, or a call that concerns the agent. -/
def Regular (event : SystemEvent Input ℕ Restart Call) : Prop :=
  (∃ t, event = .run t (good env)) ∨
    ∃ t call, event = .spawn t call ∧ Concerns 1000 agentId call

/-- The registered image is the one on the disk. -/
def imageKept (sys : System StepAct StepAns Memory) : Bool :=
  decide (sys.mem.store.durable.approvedImages = [image externals])

/-- No thread is about to look at the authorization of a write. -/
def unguarded (sys : System StepAct StepAns Memory) : SystemEvent Input ℕ Restart Call → Bool
  | .run t _ => match sys.threads t with
    | some (.act (.check _) _) | some (.act (.recheck _) _) => false
    | _ => true
  | _ => true

/-- The revocation of the second thread has come to its end. -/
def ended (sys : System StepAct StepAns Memory) : Bool :=
  match sys.threads 2, sys.mem.called 2 with
  | some (.done _), some (.revokeAgent human id none) => decide (human = 1000) && decide (id = agentId)
  | _, _ => false

/-- INTERNAL: the revocation that came to its end. -/
theorem of_ended {sys : System StepAct StepAns Memory} (h : ended sys = true) :
    sys.threads 2 = some (.done ()) ∧ sys.mem.called 2 = some (.revokeAgent 1000 agentId none) := by
  unfold ended at h
  split at h
  case h_1 value human id hdone hcalled =>
    simp only [Bool.and_eq_true, decide_eq_true_eq] at h
    rw [hdone, hcalled, h.1, h.2]
    exact ⟨rfl, rfl⟩
  case h_2 => exact absurd h (by decide)

/-- INTERNAL: **what one evaluation of a run of the process tells.** -/
theorem checked {check : System StepAct StepAns Memory → SystemEvent Input ℕ Restart Call → Bool}
    {last : System StepAct StepAns Memory → Bool} {sys : System StepAct StepAns Memory}
    {events : List (SystemEvent Input ℕ Restart Call)}
    (h : checkRun (System.step process) check last sys events = true) :
    Along (System.step process) (fun sys event => check sys event = true) sys events ∧
      last (sys.run process events) = true :=
  along_of_checkRun h

theorem smooth_good {sys : System StepAct StepAns Memory} (h : imageKept sys = true) :
    Smooth externals (good env) sys.mem :=
  ⟨rfl, rfl, rfl, imagesUnchanged externals _ (Or.inr (of_decide_eq_true h)), rfl⟩

/-- INTERNAL: only a look at the authorization begins or ends a guarded write. -/
theorem writing_perform {t : ℕ} {a : StepAct} {input : Input} {answer : StepAns a} {m m₁ : Memory}
    (hcheck : ∀ guard, a ≠ .check guard) (hrecheck : ∀ guard, a ≠ .recheck guard)
    (h : perform externals 1000 t a input m = some (answer, m₁)) : m₁.writing = m.writing := by
  cases a with
  | app a =>
    simp only [perform, Option.map_eq_some_iff, Prod.mk.injEq] at h
    obtain ⟨_, -, -, rfl⟩ := h
    rfl
  | check guard => exact absurd rfl (hcheck guard)
  | recheck guard => exact absurd rfl (hrecheck guard)
  | rename =>
    simp only [perform] at h
    split at h <;> (obtain ⟨-, rfl⟩ := Prod.mk.inj (Option.some.inj h); rfl)
  | prepare | discard | syncDirectory | poison | returns =>
    obtain ⟨-, rfl⟩ := Prod.mk.inj (Option.some.inj h)
    rfl

/-- INTERNAL: turns and calls are what may happen. -/
theorem allowed_smoothly {sys : System StepAct StepAns Memory} {events : List (SystemEvent Input ℕ Restart Call)}
    (hkept : Along (System.step process) (fun sys _ => imageKept sys = true) sys events)
    (hregular : ∀ event ∈ events, Regular event) :
    Along (System.step process)
      (System.Allowed (smoothly externals 1000 agentId) process) sys events := by
  refine Along.imp (fun sys event h => ?_) (hkept.and_mem hregular)
  obtain ⟨hkept, ⟨t, rfl⟩ | ⟨t, call, rfl, hcall⟩⟩ := h
  · exact fun _ _ _ _ _ _ => smooth_good hkept
  · exact hcall

/-- No guarded write is under way. -/
def Unwritten (sys : System StepAct StepAns Memory) : Prop := sys.mem.writing = fun _ => none

/-- INTERNAL: where no write is guarded, no authorization of a write ends. -/
theorem allowed_undisturbed {sys : System StepAct StepAns Memory}
    {events : List (SystemEvent Input ℕ Restart Call)} (hsys : Unwritten sys)
    (hkept : Along (System.step process)
      (fun sys event => (imageKept sys && unguarded sys event) = true) sys events)
    (hregular : ∀ event ∈ events, Regular event) :
    Along (System.step process)
      (System.Allowed (undisturbed externals 1000 agentId) process)
      sys events := by
  refine Along.imp (fun sys event h => ?_) (Along.and_inv (fun sys event hnone h => ?_) (hkept.and_mem hregular) hsys)
  · obtain ⟨⟨hkept, ⟨t, rfl⟩ | ⟨t, call, rfl, hcall⟩⟩, hnone⟩ := h
    · simp only [Bool.and_eq_true] at hkept
      refine fun _ _ _ _ _ _ => ⟨smooth_good hkept.1, fun u guard hw => ?_⟩
      rw [show sys.mem.writing = fun _ => none from hnone] at hw
      exact absurd hw (by simp)
    · exact hcall
  · obtain ⟨hkept, ⟨t, rfl⟩ | ⟨t, call, rfl, hcall⟩⟩ := h
    · simp only [Bool.and_eq_true] at hkept
      obtain ⟨-, hunguarded⟩ := hkept
      simp only [System.step]
      cases ht : sys.threads t with
      | none => exact hnone
      | some p =>
        cases p with
        | done value => exact hnone
        | act a next =>
          simp only [System.advance]
          cases hperform : process.perform t a (good env) sys.mem with
          | none => exact hnone
          | some result =>
            have hsame := writing_perform (fun guard hcheck => by subst hcheck; simp [unguarded, ht] at hunguarded)
              (fun guard hrecheck => by subst hrecheck; simp [unguarded, ht] at hunguarded) hperform
            exact hsame.trans hnone
    · simp only [System.step]
      cases hspawn : process.spawn t call sys.mem with
      | none => exact hnone
      | some mem =>
        simp only [Denials.machine] at hspawn
        split at hspawn
        · exact absurd hspawn (by simp)
        · rw [← Option.some.inj hspawn]
          exact hnone

/-- INTERNAL: turns and calls. -/
theorem regular_overtaking : ∀ event ∈ overtaking, Regular event := by
  intro event hevent
  simp only [overtaking, turns, List.mem_append, List.mem_cons, List.mem_replicate, List.not_mem_nil, or_false] at hevent
  rcases hevent with (rfl | rfl) | ((⟨-, rfl⟩ | ⟨-, rfl⟩) | ⟨-, rfl⟩) | ⟨-, rfl⟩
  · exact Or.inr ⟨1, _, rfl, rfl⟩
  · exact Or.inr ⟨2, _, rfl, rfl, rfl, rfl⟩
  all_goals exact Or.inl ⟨_, rfl⟩

/-- INTERNAL: turns and a call. -/
theorem regular_alone : ∀ event ∈ alone, Regular event := by
  intro event hevent
  simp only [alone, turns, List.mem_append, List.mem_cons, List.mem_replicate, List.not_mem_nil, or_false] at hevent
  rcases hevent with rfl | ⟨-, rfl⟩
  · exact Or.inr ⟨2, _, rfl, rfl, rfl, rfl⟩
  · exact Or.inl ⟨_, rfl⟩

end Overtaken

end VaultAccess.Analysis.Denials
