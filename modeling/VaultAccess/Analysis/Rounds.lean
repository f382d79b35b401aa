import VaultAccess.Library.Amid
import VaultAccess.Analysis.Expiry
import VaultAccess.Analysis.Reachable

/-!
# The last look of a status query

The loop that ends `signed_agent_status` of `src/access/application.rs`: how often it looks,
and what an answer `pending` or `approved` says of the moment of its last reading of the clock.
The thread runs amid others, who may move the clock on, publish revocations and end the
session whenever the thread does not hold the mutexes that keep them off.
-/

set_option autoImplicit false

namespace VaultAccess.Analysis.Rounds

open VaultAccess.Library VaultAccess.Library.Setting VaultAccess.Model VaultAccess.Model.Application
open VaultAccess.Analysis VaultAccess.Analysis.Expiry

/-! ## The setting -/

/-- The memory when the call tried to get the gate, and at its last reading of the clock. -/
structure Noted where
  taken : Shared
  read : Shared

def noteAct : Act → Shared → Noted → Noted
  | .tryAcquire .gate, m, g => { g with taken := m }
  | .now, m, g => { g with read := m }
  | _, _, g => g

/-- **What others may do.** -/
structure Others (t : ℕ) (m m₁ : Shared) : Prop where
  clock : m.clock ≤ m₁.clock
  epoch : m.revocationEpoch ≤ m₁.revocationEpoch
  session : m.authority.sessionEpoch ≤ m.revocationEpoch →
    m₁.authority.sessionEpoch ≤ m₁.revocationEpoch
  holder : ∀ l, m₁.holder l = some t ↔ m.holder l = some t
  gate : Holds t .gate m → m₁.authority = m.authority ∧ m₁.agentTokens = m.agentTokens
  both : Holds t .gate m → Holds t .releaseGate m →
    m₁.closing = m.closing ∧ m₁.revocationEpoch = m.revocationEpoch ∧ m₁.flags = m.flags

theorem Others.refl (t : ℕ) (m : Shared) : Others t m m :=
  ⟨Nat.le_refl _, Nat.le_refl _, fun h => h, fun _ => Iff.rfl, fun _ => ⟨rfl, rfl⟩,
    fun _ _ => ⟨rfl, rfl, rfl⟩⟩

/-- INTERNAL: others may go on. -/
theorem Others.trans {t : ℕ} {m m₁ m₂ : Shared} (h : Others t m m₁) (h' : Others t m₁ m₂) :
    Others t m m₂ := by
  refine ⟨h.clock.trans h'.clock, h.epoch.trans h'.epoch, fun hs => h'.session (h.session hs),
    fun l => (h'.holder l).trans (h.holder l), ?_, ?_⟩
  · intro hgate
    obtain ⟨ha, ht⟩ := h.gate hgate
    obtain ⟨ha', ht'⟩ := h'.gate ((h.holder _).mpr hgate)
    exact ⟨ha'.trans ha, ht'.trans ht⟩
  · intro hgate hrelease
    obtain ⟨hc, he, hf⟩ := h.both hgate hrelease
    obtain ⟨hc', he', hf'⟩ := h'.both ((h.holder _).mpr hgate) ((h.holder _).mpr hrelease)
    exact ⟨hc'.trans hc, he'.trans he, hf'.trans hf⟩

/-- A thread of the application amid others. -/
def setting (E : Externals) (ownerUid : UInt32) (t : ℕ) : Setting Act Ans Shared Input Noted where
  perform := performAct E ownerUid t
  others := Others t
  refl := Others.refl t
  trans _ _ _ := Others.trans
  note := noteAct
  good a := a ≠ .stall

/-! ## What a thread that holds the gate knows -/

/-- The thread holds the gate over this authority; the clock and the epoch have come this far. -/
structure At (t : ℕ) (a : Authority) (time since : ℕ) (start : Shared) (m : Shared) (g : Noted) : Prop where
  gate : Holds t .gate m
  authority : m.authority = a
  now : time ≤ m.clock
  epoch : since ≤ m.revocationEpoch
  taken : g.taken = start
  tokens : m.agentTokens = start.agentTokens

/-- The memories differ in their holders and their histories alone. -/
structure Same (m m₁ : Shared) : Prop where
  authority : m₁.authority = m.authority
  tokens : m₁.agentTokens = m.agentTokens
  clock : m₁.clock = m.clock
  epoch : m₁.revocationEpoch = m.revocationEpoch
  closing : m₁.closing = m.closing
  flags : m₁.flags = m.flags

section Rules

variable {E : Externals} {ownerUid : UInt32} {t : ℕ} {a : Authority} {now epoch : ℕ} {start : Shared}
variable {ε α : Type}

/-- INTERNAL: what the thread knows stays true. -/
theorem at_stable : (setting E ownerUid t).Stable (At t a now epoch start) := by
  intro m m₁ g hothers h
  have hothers : Others t m m₁ := hothers
  obtain ⟨hauthority, htokens⟩ := hothers.gate h.gate
  exact ⟨(hothers.holder _).mpr h.gate, hauthority.trans h.authority, h.now.trans hothers.clock,
    h.epoch.trans hothers.epoch, h.taken, htokens.trans h.tokens⟩

/-- INTERNAL: what the thread knows does not depend on the history. -/
theorem At.same {m m₁ : Shared} {g g₁ : Noted} (h : At t a now epoch start m g) (hsame : Same m m₁)
    (hgate : Holds t .gate m₁) (htaken : g₁.taken = g.taken) : At t a now epoch start m₁ g₁ := by
  refine ⟨hgate, hsame.authority.trans h.authority, ?_, ?_, htaken.trans h.taken,
    hsame.tokens.trans h.tokens⟩
  · rw [hsame.clock]
    exact h.now
  · rw [hsame.epoch]
    exact h.epoch

/-- INTERNAL: what a plain action leaves. -/
theorem same_of_plain {x : Act} {input : Input} {answer : Ans x} {m m₁ : Shared}
    (hplain : plain x = true) (hperform : performAct E ownerUid t x input m = some (answer, m₁)) :
    Same m m₁ := by
  cases x with
  | acquire l e | tryAcquire l | force l | reacquire ids =>
    simp only [performAct] at hperform
    split_ifs at hperform
    all_goals
      rw [← (Prod.mk.inj (Option.some.inj hperform)).2]
      exact ⟨rfl, rfl, rfl, rfl, rfl, rfl⟩
  | stall => simp [performAct] at hperform
  | loadClosing | storeClosing | loadEpoch | publishEpoch | loadUncertain | storeUncertain
  | newFlag | loadFlag | setFlag | now | unixSeconds | readAuthority | update | readState
  | provider | backend | eligible | resolve | unlock | port | lookupToken | insertToken
  | lookupExecution | listExecutions | register | removeExecution | supervise | handOver
  | createSecret | returnsCancelled | returnsAnswer | release =>
    simp [plain] at hplain
    all_goals
      rw [← (Prod.mk.inj (Option.some.inj hperform)).2]
      exact ⟨rfl, rfl, rfl, rfl, rfl, rfl⟩

theorem same_drop (m : Shared) (l : Lock) : Same m (m.drop l) := ⟨rfl, rfl, rfl, rfl, rfl, rfl⟩

/-- INTERNAL: only the gate and the clock are noted. -/
theorem taken_noteAct {x : Act} (h : ∀ l, x ≠ .tryAcquire l) (m : Shared) (g : Noted) :
    (noteAct x m g).taken = g.taken := by
  unfold noteAct
  split
  · exact absurd rfl (h _)
  · rfl
  · rfl

/-- INTERNAL: **a plain action under the gate.** -/
theorem leads_at {x : Act} {Q : Except ε (Ans x) → Shared → Noted → Prop} (hplain : plain x = true)
    (hacquire : ∀ l, x ≠ .tryAcquire l) (hgood : x ≠ .stall)
    (h : ∀ m g input answer m₁ g₁, At t a now epoch start m g → At t a now epoch start m₁ g₁ →
      performAct E ownerUid t x input m = some (answer, m₁) → Q (.ok answer) m₁ g₁) :
    (setting E ownerUid t).Leads (At t a now epoch start) (act x : App ε (Ans x)).run Q := by
  apply leads_act at_stable hgood
  intro m g input answer m₁ hm hperform
  have hgate : Holds t .gate m₁ := holds_performAct [.gate] x ((plain_spec hplain).2.1 _) hperform
    (fun l hl => by rw [List.mem_singleton.mp hl]; exact hm.gate) .gate (List.mem_singleton.mpr rfl)
  exact h m g input answer m₁ _ hm (hm.same (same_of_plain hplain hperform) hgate
    (taken_noteAct hacquire m g)) hperform

/-- INTERNAL: an action whose answer does not matter. -/
theorem leads_plain {x : Act} {F : ε → Shared → Noted → Prop} (hplain : plain x = true)
    (hacquire : ∀ l, x ≠ .tryAcquire l) (hgood : x ≠ .stall) :
    (setting E ownerUid t).Leads (At t a now epoch start) (act x : App ε (Ans x)).run
      (Either (fun _ => At t a now epoch start) F) := by
  apply leads_at hplain hacquire hgood
  intro m g input answer m₁ g₁ _ hm₁ _
  exact hm₁

/-- INTERNAL: the authority is read. -/
theorem leads_readAuthority {F : ε → Shared → Noted → Prop} :
    (setting E ownerUid t).Leads (At t a now epoch start) (act .readAuthority : App ε Authority).run
      (Either (fun answer m g => answer = a ∧ At t a now epoch start m g) F) := by
  apply leads_at rfl (by simp) (by simp)
  intro m g input answer m₁ g₁ hm hm₁ hperform
  refine ⟨?_, hm₁⟩
  rw [← (Prod.mk.inj (Option.some.inj hperform)).1]
  exact hm.authority

/-- INTERNAL: the clock is read. -/
theorem leads_now {F : ε → Shared → Noted → Prop} :
    (setting E ownerUid t).Leads (At t a now epoch start) (act .now : App ε ℕ).run
      (Either (fun answer m g => now ≤ answer ∧ At t a answer epoch start m g) F) := by
  apply leads_at rfl (by simp) (by simp)
  intro m g input answer m₁ g₁ hm hm₁ hperform
  have hanswer : answer = m₁.clock := by
    rw [← (Prod.mk.inj (Option.some.inj hperform)).1, ← (Prod.mk.inj (Option.some.inj hperform)).2]
    rfl
  refine ⟨?_, { hm₁ with now := Nat.le_of_eq hanswer }⟩
  rw [hanswer]
  exact hm₁.now

/-- INTERNAL: the epoch is read. -/
theorem leads_loadEpoch {F : ε → Shared → Noted → Prop} :
    (setting E ownerUid t).Leads (At t a now epoch start) (act .loadEpoch : App ε ℕ).run
      (Either (fun answer m g => epoch ≤ answer ∧ At t a now answer start m g) F) := by
  apply leads_at rfl (by simp) (by simp)
  intro m g input answer m₁ g₁ hm hm₁ hperform
  have hanswer : answer = m₁.revocationEpoch := by
    rw [← (Prod.mk.inj (Option.some.inj hperform)).1, ← (Prod.mk.inj (Option.some.inj hperform)).2]
  refine ⟨?_, { hm₁ with epoch := Nat.le_of_eq hanswer }⟩
  rw [hanswer]
  exact hm₁.epoch

/-- INTERNAL: the stored state is read. -/
theorem leads_readState {F : ε → Shared → Noted → Prop} :
    (setting E ownerUid t).Leads (At t a now epoch start)
      (act .readState : App ε (Except ProviderDiagnostic ProviderState)).run
      (Either (fun answer m g => (∀ s, answer = .ok s →
          ∃ disk, a.store.readState E ownerUid disk = .ok s) ∧ At t a now epoch start m g) F) := by
  apply leads_at rfl (by simp) (by simp)
  intro m g input answer m₁ g₁ hm hm₁ hperform
  refine ⟨?_, hm₁⟩
  intro s hs
  rw [← (Prod.mk.inj (Option.some.inj hperform)).1, hm.authority] at hs
  split_ifs at hs
  exact ⟨_, hs⟩

/-- INTERNAL: the authority is changed. -/
theorem leads_update {u : AuthorityUpdate} {F : ε → Shared → Noted → Prop} :
    (setting E ownerUid t).Leads (At t a now epoch start) (act (.update u) : App ε Unit).run
      (Either (fun _ => At t (u.apply a) now epoch start) F) := by
  apply leads_act at_stable (by intro h; simp at h)
  intro m g input answer m₁ hm hperform
  rw [← (Prod.mk.inj (Option.some.inj hperform)).2]
  exact ⟨hm.gate, congrArg (u.apply ·) hm.authority, hm.now, hm.epoch, hm.taken, hm.tokens⟩

/-- INTERNAL: the provider is called. -/
theorem leads_provider {op : Op} {F : ε → Shared → Noted → Prop} :
    (setting E ownerUid t).Leads (At t a now epoch start)
      (act (.provider op) : App ε (Except op.Error op.Value)).run
      (Either (fun answer m g => ∃ env w unreadable,
        answer = (a.store.call E ownerUid op env w unreadable).2 ∧
        At t { a with store := (a.store.call E ownerUid op env w unreadable).1 } now epoch start m g) F) := by
  apply leads_act at_stable (by intro h; simp at h)
  intro m g input answer m₁ hm hperform
  refine ⟨input.env, input.outcome, input.unreadable, ?_, ?_⟩
  · rw [← (Prod.mk.inj (Option.some.inj hperform)).1, ← hm.authority]
  · rw [← (Prod.mk.inj (Option.some.inj hperform)).2, ← hm.authority]
    exact ⟨hm.gate, rfl, hm.now, hm.epoch, hm.taken, hm.tokens⟩

end Rules

/-! ## Sessions that end -/

/-- The session is as it was, or it ended and no request has a deadline. -/
structure Moved (a a' : Authority) : Prop where
  epoch : a'.sessionEpoch = a.sessionEpoch
  session : (a'.deadline = a.deadline ∧ a'.requestDeadlines = a.requestDeadlines) ∨
    (a'.deadline = none ∧ ∀ id, a'.requestDeadlines id = none)

/-- The session ended. -/
structure Ended (a a' : Authority) : Prop where
  epoch : a'.sessionEpoch = a.sessionEpoch
  deadline : a'.deadline = none
  table : ∀ id, a'.requestDeadlines id = none

theorem Moved.refl (a : Authority) : Moved a a := ⟨rfl, Or.inl ⟨rfl, rfl⟩⟩

theorem Ended.moved {a a' : Authority} (h : Ended a a') : Moved a a' :=
  ⟨h.epoch, Or.inr ⟨h.deadline, h.table⟩⟩

/-- INTERNAL: three moments. -/
theorem Moved.trans {a b c : Authority} (h : Moved a b) (h' : Moved b c) : Moved a c := by
  refine ⟨h'.epoch.trans h.epoch, ?_⟩
  rcases h'.session with ⟨hdeadline, htable⟩ | hended
  · rw [hdeadline, htable]
    exact h.session
  · exact Or.inr hended

section Refresh

variable {E : Externals} {ownerUid : UInt32} {t : ℕ} {a : Authority} {now epoch : ℕ} {start : Shared}

/-- INTERNAL: **`revoke` ends the session.** -/
theorem leads_revoke :
    (setting E ownerUid t).Leads (At t a now epoch start) revoke.run
      (Either (fun _ m g => ∃ a', Ended a a' ∧ At t a' now epoch start m g)
        fun e _ _ => e = SessionError.cleanupFailed) := by
  unfold revoke
  apply leads_bind leads_readAuthority
  intro authority
  apply leads_fact
  rintro rfl
  cases checkedAdd authority.generation 1 with
  | none =>
    rw [okOr_none_bind]
    exact leads_throw fun _ _ _ => rfl
  | some generation =>
    rw [okOr_some_bind]
    apply leads_bind leads_update
    intro _
    apply leads_bind (leads_plain rfl (by simp) (by simp))
    intro backend
    apply leads_bind leads_provider
    intro store
    apply leads_exists
    intro env
    apply leads_exists
    intro w
    apply leads_exists
    intro unreadable
    apply leads_fact
    intro _
    split_ifs
    · exact leads_throw fun _ _ _ => rfl
    · apply Leads.conseq leads_update (fun _ _ h => h)
      intro result m g h
      cases result with
      | ok value =>
        refine ⟨_, ?_, h⟩
        exact ⟨rfl, rfl, fun _ => rfl⟩
      | error e => exact h

/-- What `admit` leaves: the session is open, or it ended, or it was locked before. -/
def Admitted (now : ℕ) (a a' : Authority) : Prop :=
  Moved a a' ∧ ∀ deadline, a'.deadline = some deadline → now < deadline

/-- INTERNAL: **`admit`.** -/
theorem leads_admission :
    (setting E ownerUid t).Leads (At t a now epoch start) admission.run
      fun result m g => result = .ok () ∨ result = .error .locked →
        ∃ a', Admitted now a a' ∧ At t a' now epoch start m g := by
  have hrevoke : ∀ {now}, (setting E ownerUid t).Leads (At t a now epoch start)
      (do revoke; throw SessionError.locked : App SessionError Unit).run
      fun result m g => result = .ok () ∨ result = .error .locked →
        ∃ a', Admitted now a a' ∧ At t a' now epoch start m g := by
    intro now
    apply leads_bind (R := fun _ m g => ∃ a', Ended a a' ∧ At t a' now epoch start m g)
    · apply Leads.conseq leads_revoke (fun _ _ h => h)
      intro result m g h
      cases result with
      | ok value => exact h
      | error e =>
        rintro (hok | hlocked)
        · simp at hok
        · rw [show e = .cleanupFailed from h] at hlocked
          simp at hlocked
    · intro _
      apply leads_throw
      rintro m g ⟨a', hended, hm⟩ -
      refine ⟨a', ⟨hended.moved, ?_⟩, hm⟩
      intro deadline hdeadline
      rw [hended.deadline] at hdeadline
      simp at hdeadline
  unfold admission
  apply leads_bind (leads_plain rfl (by simp) (by simp))
  intro closing
  split_ifs
  · exact hrevoke
  apply leads_bind leads_readAuthority
  intro authority
  apply leads_fact
  rintro rfl
  cases hdeadline : authority.deadline with
  | none =>
    rw [okOr_none_bind]
    apply leads_throw
    rintro m g hm -
    refine ⟨authority, ⟨.refl authority, ?_⟩, hm⟩
    intro deadline h
    rw [hdeadline] at h
    simp at h
  | some deadline =>
    rw [okOr_some_bind]
    apply leads_bind leads_now
    intro time
    apply leads_fact
    intro htime
    split_ifs with hopen
    · apply leads_pure
      rintro m g hm -
      refine ⟨authority, ⟨.refl authority, ?_⟩, { hm with now := htime.trans hm.now }⟩
      intro deadline' h
      rw [hdeadline, Option.some.injEq] at h
      simp only [Bool.and_eq_true, decide_eq_true_eq] at hopen
      rw [← h]
      exact htime.trans_lt hopen.1
    · apply Leads.conseq hrevoke (fun _ _ h => h)
      intro result m g h hresult
      obtain ⟨a', ⟨hmoved, hahead⟩, hm⟩ := h hresult
      refine ⟨a', ⟨hmoved, ?_⟩, { hm with now := htime.trans hm.now }⟩
      intro deadline' h'
      exact htime.trans_lt (hahead deadline' h')

/-- What expiry leaves of the authority. -/
structure Passed (now : ℕ) (a a' : Authority) : Prop where
  epoch : a'.sessionEpoch = a.sessionEpoch
  deadline : a'.deadline = a.deadline
  table : ∀ id deadline, a'.requestDeadlines id = some deadline →
    a.requestDeadlines id = some deadline ∧ now < deadline
  served : ∀ r ∈ a'.store.durable.requests, Waits r → ∃ deadline, a'.requestDeadlines r.id = some deadline

/-- INTERNAL: **`expire_requests`.** -/
theorem leads_expireRequests {F : SessionError → Shared → Noted → Prop} (hF : ∀ e m g, F e m g) :
    (setting E ownerUid t).Leads (At t a now epoch start) expireRequests.run
      (Either (fun _ m g => ∃ a', Passed now a a' ∧ At t a' now epoch start m g) F) := by
  unfold expireRequests
  apply leads_bind leads_now
  intro time
  apply leads_fact
  intro htime
  apply leads_bind leads_readAuthority
  intro authority
  apply leads_fact
  rintro rfl
  apply leads_bind leads_provider
  intro expiry
  apply leads_exists
  intro env
  apply leads_exists
  intro w
  apply leads_exists
  intro unreadable
  apply leads_fact
  intro hexpiry
  split_ifs with hok
  · apply Leads.conseq leads_update (fun _ _ h => h)
    intro result m g h
    cases result with
    | error e => exact h
    | ok value =>
      refine ⟨_, ?_, { (show At t _ time epoch start m g from h) with now := htime.trans h.now }⟩
      have hanswer : (authority.store.call E ownerUid (.expireDirect time authority.requestDeadlines) env w
          unreadable).2 = .ok () := by
        rw [← hexpiry]
        cases expiry with
        | ok value => rfl
        | error e => simp [Except.isOk, Except.toBool] at hok
      have hkept : ∀ id deadline, (authority.requestDeadlines id).filter (time < ·) = some deadline ↔
          authority.requestDeadlines id = some deadline ∧ time < deadline := by
        intro id deadline
        rw [Option.filter_eq_some_iff, decide_eq_true_eq]
      refine ⟨rfl, rfl, ?_, ?_⟩
      · intro id deadline hdeadline
        obtain ⟨hbefore, hahead⟩ := (hkept id deadline).mp hdeadline
        exact ⟨hbefore, htime.trans_lt hahead⟩
      · intro r hr hwaits
        obtain ⟨deadline, hdeadline⟩ := ahead_of_expireDirect hanswer r hr hwaits
        exact ⟨deadline, (hkept r.id deadline).mpr hdeadline⟩
  · exact leads_throw fun _ _ _ => hF _ _ _

/-- What a refresh that began at this time and epoch leaves of the authority. -/
structure Refreshed (now since : ℕ) (a a' : Authority) : Prop where
  epoch : a'.sessionEpoch = a.sessionEpoch
  session : a'.deadline = a.deadline ∨ (a'.deadline = none ∧ ∀ id, a'.requestDeadlines id = none)
  table : ∀ id deadline, a'.requestDeadlines id = some deadline →
    a.requestDeadlines id = some deadline ∧ now < deadline
  served : ∀ r ∈ a'.store.durable.requests, Waits r → ∃ deadline, a'.requestDeadlines r.id = some deadline
  ahead : ∀ deadline, a'.deadline = some deadline → now < deadline ∧ since ≤ a.sessionEpoch

/-- INTERNAL: what a refresh does after it looked at the epoch. -/
theorem leads_settled {F : AgentRejection → Shared → Noted → Prop} (hF : ∀ e m g, F e m g) {a₁ : Authority}
    (hmoved : Moved a a₁) (hepoch : a₁.deadline.isSome = true → epoch ≤ a.sessionEpoch) :
    (setting E ownerUid t).Leads (At t a₁ now epoch start) (do
      match ← attempt admission with
      | .ok () => pure ()
      | .error .locked => pure ()
      | .error e => throw (.ofSession e)
      expireRequests.adapt .ofSession : App AgentRejection Unit).run
      (Either (fun _ m g => ∃ a', Refreshed now epoch a a' ∧ At t a' now epoch start m g) F) := by
  have hexpire : ∀ a₂, Admitted now a₁ a₂ →
      (setting E ownerUid t).Leads (At t a₂ now epoch start)
        (expireRequests.adapt .ofSession : App AgentRejection Unit).run
        (Either (fun _ m g => ∃ a', Refreshed now epoch a a' ∧ At t a' now epoch start m g) F) := by
    rintro a₂ ⟨hmoved₂, hahead⟩
    apply leads_adapt
    apply Leads.conseq (leads_expireRequests fun _ _ _ => trivial) (fun _ _ h => h)
    intro result m g h
    cases result with
    | error e => exact hF _ _ _
    | ok value =>
      obtain ⟨a', hpassed, hm⟩ := h
      refine ⟨a', ?_, hm⟩
      have hall := hmoved.trans hmoved₂
      refine ⟨hpassed.epoch.trans hall.epoch, ?_, ?_, hpassed.served, ?_⟩
      · rw [hpassed.deadline]
        rcases hall.session with ⟨hdeadline, -⟩ | ⟨hdeadline, hnone⟩
        · exact Or.inl hdeadline
        · refine Or.inr ⟨hdeadline, fun id => ?_⟩
          by_contra hsome
          obtain ⟨deadline, hsome⟩ := Option.ne_none_iff_exists'.mp hsome
          have hbefore := (hpassed.table id deadline hsome).1
          rw [hnone id] at hbefore
          simp at hbefore
      · intro id deadline hdeadline
        obtain ⟨hbefore, hlater⟩ := hpassed.table id deadline hdeadline
        rcases hall.session with ⟨-, htable⟩ | ⟨-, hnone⟩
        · rw [htable] at hbefore
          exact ⟨hbefore, hlater⟩
        · rw [hnone id] at hbefore
          simp at hbefore
      · intro deadline hdeadline
        rw [hpassed.deadline] at hdeadline
        refine ⟨hahead deadline hdeadline, hepoch ?_⟩
        rcases hmoved₂.session with ⟨hsame, -⟩ | ⟨hnone, -⟩
        · rw [← hsame, hdeadline, Option.isSome_some]
        · rw [hnone] at hdeadline
          simp at hdeadline
  have hadmitted : (setting E ownerUid t).Leads
      (fun m g => ∃ a₂, Admitted now a₁ a₂ ∧ At t a₂ now epoch start m g)
      (expireRequests.adapt .ofSession : App AgentRejection Unit).run
      (Either (fun _ m g => ∃ a', Refreshed now epoch a a' ∧ At t a' now epoch start m g) F) := by
    apply leads_exists
    intro a₂
    apply leads_fact
    exact hexpire a₂
  apply leads_bind (leads_attempt leads_admission)
  intro result
  cases result with
  | ok u => exact Leads.conseq hadmitted (fun _ _ h => h (Or.inl rfl)) fun _ _ _ h => h
  | error e =>
    cases e with
    | locked => exact Leads.conseq hadmitted (fun _ _ h => h (Or.inr rfl)) fun _ _ _ h => h
    | _ => exact leads_throwBind fun _ _ _ => hF _ _ _

/-- INTERNAL: **`refresh`.** -/
theorem leads_refresh {F : AgentRejection → Shared → Noted → Prop} (hF : ∀ e m g, F e m g) :
    (setting E ownerUid t).Leads (At t a now epoch start) refresh.run
      (Either (fun _ m g => ∃ a', Refreshed now epoch a a' ∧ At t a' now epoch start m g) F) := by
  unfold refresh
  apply leads_bind leads_readAuthority
  intro authority
  apply leads_fact
  rintro rfl
  split_ifs with hopen
  · apply leads_bind leads_loadEpoch
    intro read
    apply leads_fact
    intro hread
    have hlate : (setting E ownerUid t).Leads (At t authority now read start)
        (do revoke.adapt .ofSession
            match ← attempt admission with
            | .ok () => pure ()
            | .error .locked => pure ()
            | .error e => throw (.ofSession e)
            expireRequests.adapt .ofSession : App AgentRejection Unit).run
        (Either (fun _ m g => ∃ a', Refreshed now epoch authority a' ∧ At t a' now epoch start m g) F) := by
      apply leads_bind (R := fun _ m g => ∃ a', Ended authority a' ∧ At t a' now epoch start m g)
      · apply leads_adapt
        apply Leads.conseq leads_revoke (fun _ _ h => h)
        intro result m g h
        cases result with
        | error e => exact hF _ _ _
        | ok value =>
          obtain ⟨a', hended, hm⟩ := h
          exact ⟨a', hended, { hm with epoch := hread.trans hm.epoch }⟩
      · intro u
        apply leads_exists
        intro a'
        apply leads_fact
        intro hended
        apply leads_settled hF hended.moved
        rw [hended.deadline]
        simp
    split_ifs with hsame
    · exact hlate
    · rw [not_not] at hsame
      apply Leads.conseq (leads_settled hF (.refl authority) ?_) ?_ fun _ _ _ h => h
      · intro _
        rw [← hsame]
        exact hread
      · intro m g hm
        exact { hm with epoch := hread.trans hm.epoch }
  · apply leads_settled hF (.refl authority)
    intro h
    exact absurd h hopen

end Refresh

/-! ## One look -/

/-- The thread holds both gates since the last reading of the clock. -/
structure Looking (t : ℕ) (a : Authority) (start : Shared) (m : Shared) (g : Noted) : Prop where
  known : At t a g.read.clock g.read.revocationEpoch start m g
  release : Holds t .releaseGate m
  authority : g.read.authority = a
  tokens : g.read.agentTokens = start.agentTokens
  closing : m.closing = g.read.closing
  epoch : m.revocationEpoch = g.read.revocationEpoch
  flags : m.flags = g.read.flags

/-- The reading found the session or the deadline of the request passed. -/
def Crossed (id : String) (status : DirectStatus) (a : Authority) (time since : ℕ) : Prop :=
  (∃ deadline, a.deadline = some deadline ∧ (deadline ≤ time ∨ since ≠ a.sessionEpoch)) ∨
    ((status = .pending ∨ status = .approved) ∧
      ∃ deadline, a.requestDeadlines id = some deadline ∧ deadline ≤ time)

section Look

variable {E : Externals} {ownerUid : UInt32} {t : ℕ} {a : Authority} {now epoch : ℕ} {start : Shared}
variable {ε α : Type}

theorem looking_stable : (setting E ownerUid t).Stable (Looking t a start) := by
  intro m m₁ g hothers h
  obtain ⟨hclosing, hepoch, hflags⟩ := Others.both hothers h.known.gate h.release
  exact ⟨at_stable m m₁ g hothers h.known, (Others.holder hothers _).mpr h.release, h.authority, h.tokens,
    hclosing.trans h.closing, hepoch.trans h.epoch, hflags.trans h.flags⟩

/-- INTERNAL: a plain action after the reading. -/
theorem leads_looking {x : Act} {fact : Noted → Prop} {Q : Except ε (Ans x) → Shared → Noted → Prop}
    (hplain : plain x = true) (hacquire : ∀ l, x ≠ .tryAcquire l) (hnow : x ≠ .now) (hgood : x ≠ .stall)
    (h : ∀ m g input answer m₁, Looking t a start m g → Looking t a start m₁ g → fact g →
      performAct E ownerUid t x input m = some (answer, m₁) → Q (.ok answer) m₁ g) :
    (setting E ownerUid t).Leads (fun m g => Looking t a start m g ∧ fact g) (act x : App ε (Ans x)).run Q := by
  apply leads_act (fun m m₁ g hothers hm => ⟨looking_stable m m₁ g hothers hm.1, hm.2⟩) hgood
  rintro m g input answer m₁ ⟨hm, hfact⟩ hperform
  have hnote : noteAct x m g = g := by
    unfold noteAct
    split
    · exact absurd rfl (hacquire _)
    · exact absurd rfl hnow
    · rfl
  have hholds := holds_performAct [.gate, .releaseGate] x ((plain_spec hplain).2.1 _) hperform (by
    intro l hl
    rcases List.mem_cons.mp hl with rfl | hl
    · exact hm.known.gate
    · rw [List.mem_singleton.mp hl]
      exact hm.release)
  have hsame := same_of_plain hplain hperform
  show Q (.ok answer) m₁ (noteAct x m g)
  rw [hnote]
  refine h m g input answer m₁ hm ?_ hfact hperform
  exact ⟨hm.known.same hsame (hholds .gate (by simp)) rfl, hholds .releaseGate (by simp), hm.authority,
    hm.tokens, hsame.closing.trans hm.closing, hsame.epoch.trans hm.epoch, hsame.flags.trans hm.flags⟩

/-- INTERNAL: the last reading. -/
theorem leads_read {F : ε → Shared → Noted → Prop} :
    (setting E ownerUid t).Leads (fun m g => At t a now epoch start m g ∧ Holds t .releaseGate m)
      (act .now : App ε ℕ).run
      (Either (fun time m g => Looking t a start m g ∧ time = g.read.clock ∧ now ≤ g.read.clock ∧
        epoch ≤ g.read.revocationEpoch) F) := by
  apply leads_act
  · intro m m₁ g hothers h
    exact ⟨at_stable m m₁ g hothers h.1, (Others.holder hothers _).mpr h.2⟩
  · intro h
    simp at h
  · rintro m g input answer m₁ ⟨hm, hrelease⟩ hperform
    obtain ⟨hanswer, hm₁⟩ := Prod.mk.inj (Option.some.inj hperform)
    rw [← hanswer, ← hm₁]
    refine ⟨⟨?_, hrelease, hm.authority, hm.tokens, rfl, rfl, rfl⟩, rfl, hm.now, hm.epoch⟩
    exact ⟨hm.gate, hm.authority, Nat.le_refl _, Nat.le_refl _, hm.taken, hm.tokens⟩

/-- INTERNAL: **the comparison with the last reading.** -/
theorem leads_crossed {id : String} {status : DirectStatus} {F : AgentRejection → Shared → Noted → Prop} :
    (setting E ownerUid t).Leads (fun m g => At t a now epoch start m g ∧ Holds t .releaseGate m)
      (crossed id status).run
      (Either (fun answer m g => (answer = true ↔ Crossed id status a g.read.clock g.read.revocationEpoch) ∧
        now ≤ g.read.clock ∧ epoch ≤ g.read.revocationEpoch ∧ Looking t a start m g) F) := by
  unfold crossed
  apply leads_bind leads_read
  intro time
  apply leads_bind (R := fun answer m g => answer = a ∧ Looking t a start m g ∧ time = g.read.clock ∧
    now ≤ g.read.clock ∧ epoch ≤ g.read.revocationEpoch)
  · apply leads_looking rfl (by simp) (by simp) (by simp)
    intro m g input answer m₁ hm hm₁ hfact hperform
    refine ⟨?_, hm₁, hfact⟩
    rw [← (Prod.mk.inj (Option.some.inj hperform)).1]
    exact hm.known.authority
  intro authority
  apply leads_fact
  rintro rfl
  have hexpired : ∀ g : Noted, ((authority.deadline.any fun deadline => decide (deadline ≤ g.read.clock)) ||
      ((status = .pending || status = .approved) &&
        (authority.requestDeadlines id).any fun deadline => decide (deadline ≤ g.read.clock)) ||
      (authority.deadline.isSome && decide (g.read.revocationEpoch ≠ authority.sessionEpoch))) = true ↔
      Crossed id status authority g.read.clock g.read.revocationEpoch := by
    intro g
    unfold Crossed
    cases authority.deadline with
    | none => simp [Option.any_eq_true]
    | some session =>
      simp only [Option.any_some, Option.isSome_some, Bool.true_and, Bool.or_eq_true, Bool.and_eq_true,
        decide_eq_true_eq, Option.some.injEq, exists_eq_left', Option.any_eq_true]
      exact or_right_comm
  split_ifs with hopen
  · apply leads_bind (R := fun read m g => read = g.read.revocationEpoch ∧ Looking t authority start m g ∧
      time = g.read.clock ∧ now ≤ g.read.clock ∧ epoch ≤ g.read.revocationEpoch)
    · apply leads_looking rfl (by simp) (by simp) (by simp)
      intro m g input answer m₁ hm hm₁ hfact hperform
      refine ⟨?_, hm₁, hfact⟩
      rw [← (Prod.mk.inj (Option.some.inj hperform)).1]
      exact hm.epoch
    intro read
    apply leads_pure
    rintro m g ⟨rfl, hm, rfl, hnow, hepoch⟩
    refine ⟨?_, hnow, hepoch, hm⟩
    rw [← hexpired g, hopen]
    rfl
  · apply leads_pure
    rintro m g ⟨hm, rfl, hnow, hepoch⟩
    refine ⟨?_, hnow, hepoch, hm⟩
    rw [← hexpired g]
    simp [hopen]

/-- INTERNAL: **the scope of a guard.** -/
theorem leads_holding {l : Lock} {P : Shared → Noted → Prop} {body : App ε α}
    {Q : Except ε α → Shared → Noted → Prop} (hstable : ∀ result, (setting E ownerUid t).Stable (Q result))
    (hdrop : ∀ result m g, Q result m g → Q result (m.drop l) g)
    (hbody : (setting E ownerUid t).Leads P body.run Q) :
    (setting E ownerUid t).Leads P (holding l body).run Q := by
  unfold holding
  apply leads_bind (R := Q) (leads_attempt (Leads.conseq hbody (fun _ _ h => h) fun _ _ _ h => h))
  intro result
  apply leads_bind (R := fun _ => Q result)
  · apply leads_act (hstable result) (by intro h; simp at h)
    intro m g input answer m₁ hm hperform
    have hperform : performAct E ownerUid t (.release l) input m = some (answer, m₁) := hperform
    simp only [performAct] at hperform
    split_ifs at hperform
    rw [← (Prod.mk.inj (Option.some.inj hperform)).2]
    exact hdrop result m g hm
  · intro _
    cases result with
    | ok value => exact leads_pure fun _ _ h => h
    | error e => exact leads_throw fun _ _ h => h

/-- INTERNAL: **a mutex under the gate.** -/
theorem leads_withLock {l : Lock} {e : ε} {body : App ε α} {Q : Except ε α → Shared → Noted → Prop}
    (hstable : ∀ result, (setting E ownerUid t).Stable (Q result))
    (hdrop : ∀ result m g, Q result m g → Q result (m.drop l) g)
    (herror : ∀ m g, At t a now epoch start m g → Q (.error e) m g)
    (hbody : (setting E ownerUid t).Leads (fun m g => At t a now epoch start m g ∧ Holds t l m) body.run Q) :
    (setting E ownerUid t).Leads (At t a now epoch start) (withLock l e body).run Q := by
  unfold withLock
  apply leads_bind (R := fun answer m g => At t a now epoch start m g ∧ (answer = true → Holds t l m))
  · apply leads_at rfl (by simp) (by simp)
    intro m g input answer m₁ g₁ _ hm₁ hperform
    refine ⟨hm₁, ?_⟩
    rintro rfl
    simp only [performAct] at hperform
    split_ifs at hperform
    · simp at hperform
    · rw [← (Prod.mk.inj (Option.some.inj hperform)).2]
      simp [Holds, Shared.take]
  · intro taken
    split_ifs with htaken
    · exact leads_holding hstable hdrop (Leads.conseq hbody (fun m g h => ⟨h.1, h.2 htaken⟩) fun _ _ _ h => h)
    · exact leads_throw fun m g h => herror m g h.1

/-- INTERNAL: a status is answered as it was found. -/
theorem leads_answered (answer : Except DirectRequestError DirectStatus) {P : Shared → Noted → Prop}
    {F : AgentRejection → Shared → Noted → Prop} (hF : ∀ e m g, F e m g) :
    (setting E ownerUid t).Leads P (match answer with
      | .ok status => pure status
      | .error .notFound | .error .unauthorized => throw .unauthorized
      | .error _ => throw .unavailable : App AgentRejection DirectStatus).run
      (Either (fun status m g => answer = .ok status ∧ P m g) F) := by
  split
  · exact leads_pure fun _ _ h => ⟨rfl, h⟩
  · exact leads_throw fun _ _ _ => hF _ _ _
  · exact leads_throw fun _ _ _ => hF _ _ _
  · exact leads_throw fun _ _ _ => hF _ _ _

/-- INTERNAL: the status as it is stored. -/
theorem leads_storedStatus {owner : AgentOwner} {uid : UInt32} {groups : List UInt32} {id : String}
    {F : AgentRejection → Shared → Noted → Prop} (hF : ∀ e m g, F e m g) :
    (setting E ownerUid t).Leads (At t a now epoch start) (storedStatus owner uid groups id).run
      (Either (fun status m g => (∃ d, a.store.durable.direct id = some d ∧ d.review.status = status) ∧
        At t a now epoch start m g) F) := by
  unfold storedStatus
  apply leads_bind leads_readState
  intro answer
  apply leads_fact
  intro hread
  cases answer with
  | error e => exact leads_throwBind fun _ _ _ => hF _ _ _
  | ok s =>
    obtain ⟨disk, hread⟩ := hread s rfl
    have hdirect : s.direct id = a.store.durable.direct id := by
      rw [ProviderState.direct, ProviderState.request, requests_of_reads hread]
      rfl
    apply Leads.conseq (leads_answered (agentStatus s owner uid groups id) hF) (fun _ _ h => h)
    intro result m g h
    cases result with
    | error e => exact hF _ _ _
    | ok status =>
      obtain ⟨hstatus, hm⟩ := h
      refine ⟨?_, hm⟩
      unfold agentStatus at hstatus
      split_ifs at hstatus
      rw [← hdirect]
      cases hd : s.direct id with
      | none => simp [hd] at hstatus
      | some d =>
        simp only [hd] at hstatus
        split_ifs at hstatus
        rw [Except.ok.injEq] at hstatus
        exact ⟨d, rfl, hstatus⟩

/-- INTERNAL: the token, looked at after the reading. -/
theorem leads_tokenLive {cell : ℕ} {fact : Noted → Prop} {F : ε → Shared → Noted → Prop} :
    (setting E ownerUid t).Leads (fun m g => Looking t a start m g ∧ fact g)
      (tokenLive (some cell) : App ε Bool).run
      (Either (fun live m g => live = !g.read.flag cell ∧ Looking t a start m g ∧ fact g) F) := by
  unfold tokenLive
  apply leads_bind (R := fun answer m g => answer = g.read.flag cell ∧ Looking t a start m g ∧ fact g)
  · apply leads_looking rfl (by simp) (by simp) (by simp)
    intro m g input answer m₁ hm hm₁ hfact hperform
    refine ⟨?_, hm₁, hfact⟩
    rw [← (Prod.mk.inj (Option.some.inj hperform)).1]
    show m.flags.getD cell false = g.read.flags.getD cell false
    rw [hm.flags]
  · intro answer
    apply leads_pure
    rintro m g ⟨rfl, h⟩
    exact ⟨rfl, h⟩

/-- INTERNAL: admission, looked at after the reading. -/
theorem leads_loadClosing {fact : Noted → Prop} {F : ε → Shared → Noted → Prop} :
    (setting E ownerUid t).Leads (fun m g => Looking t a start m g ∧ fact g)
      (act .loadClosing : App ε Bool).run
      (Either (fun closing m g => closing = g.read.closing ∧ Looking t a start m g ∧ fact g) F) := by
  apply leads_looking rfl (by simp) (by simp) (by simp)
  intro m g input answer m₁ hm hm₁ hfact hperform
  refine ⟨?_, hm₁, hfact⟩
  rw [← (Prod.mk.inj (Option.some.inj hperform)).1]
  exact hm.closing

/-- INTERNAL: a projection that is pending or approved. -/
theorem leads_project {status : DirectStatus} {P : Shared → Noted → Prop}
    {F : AgentRejection → Shared → Noted → Prop} (hF : ∀ e m g, F e m g) :
    (setting E ownerUid t).Leads P (project status).run
      (Either (fun answer m g => (answer = .pending ∨ answer = .approved →
        status = .pending ∨ status = .approved) ∧ P m g) F) := by
  cases status with
  | completed exitCode =>
    simp only [project]
    split_ifs
    · exact leads_pure fun m g hm => ⟨by simp, hm⟩
    · exact leads_throw fun _ _ _ => hF _ _ _
  | pending | approved | running | denied | expired | failed =>
    exact leads_pure fun m g hm => ⟨by simp, hm⟩

end Look

/-! ## The loop -/

/-- What the call knows of the authority after it refreshed it. -/
structure Ready (before a : Authority) : Prop where
  epoch : a.sessionEpoch = before.sessionEpoch
  session : a.deadline = before.deadline ∨ (a.deadline = none ∧ ∀ id, a.requestDeadlines id = none)
  served : ∀ r ∈ a.store.durable.requests, Waits r → ∃ deadline, a.requestDeadlines r.id = some deadline

/-- The deadlines that a look can still find passed: the session's and the request's. -/
def left (id : String) (a : Authority) : ℕ :=
  (if a.deadline.isSome then 1 else 0) + if (a.requestDeadlines id).isSome then 1 else 0

theorem left_le (id : String) (a : Authority) : left id a ≤ 2 := by
  unfold left
  split_ifs <;> omega

/-- INTERNAL: **a refresh removes what a look found passed.** -/
theorem left_lt {id : String} {status : DirectStatus} {a a' : Authority} {time since : ℕ}
    (hcrossed : Crossed id status a time since) (h : Refreshed time since a a')
    (hepoch : a.sessionEpoch ≤ since) : left id a' < left id a := by
  have htable : (a'.requestDeadlines id).isSome = true → (a.requestDeadlines id).isSome = true := by
    intro hsome
    obtain ⟨deadline, hdeadline⟩ := Option.isSome_iff_exists.mp hsome
    rw [(h.table id deadline hdeadline).1]
    rfl
  have hsession : a'.deadline.isSome = true → a.deadline.isSome = true := by
    intro hsome
    rcases h.session with hsame | ⟨hnone, -⟩
    · rw [← hsame]
      exact hsome
    · rw [hnone] at hsome
      simp at hsome
  unfold left
  rcases hcrossed with ⟨deadline, hdeadline, hpassed⟩ | ⟨-, deadline, hdeadline, hpassed⟩
  · -- the session is over: the refresh ended it
    have hended : a'.deadline = none := by
      by_contra hsome
      obtain ⟨deadline', hdeadline'⟩ := Option.ne_none_iff_exists'.mp hsome
      obtain ⟨hahead, hsince⟩ := h.ahead deadline' hdeadline'
      rcases h.session with hsame | ⟨hnone, -⟩
      · rw [hsame, hdeadline, Option.some.injEq] at hdeadline'
        omega
      · rw [hnone] at hdeadline'
        simp at hdeadline'
    rw [hended, hdeadline]
    simp only [Option.isSome_none, Bool.false_eq_true, if_false, Option.isSome_some, if_true]
    split_ifs with hfirst hsecond
    · omega
    · exact absurd (htable hfirst) hsecond
    · omega
    · omega
  · -- the request is due: the refresh took its deadline out
    have hgone : a'.requestDeadlines id = none := by
      by_contra hsome
      obtain ⟨deadline', hdeadline'⟩ := Option.ne_none_iff_exists'.mp hsome
      obtain ⟨hbefore, hahead⟩ := h.table id deadline' hdeadline'
      rw [hdeadline, Option.some.injEq] at hbefore
      omega
    rw [hgone, hdeadline]
    simp only [Option.isSome_none, Bool.false_eq_true, if_false, Option.isSome_some, if_true]
    split_ifs with hfirst hsecond
    · omega
    · exact absurd (hsession hfirst) hsecond
    · omega
    · omega

/-- INTERNAL: a refresh keeps what the call knows. -/
theorem Refreshed.ready {before a a' : Authority} {time since : ℕ} (h : Refreshed time since a a')
    (hepoch : a.sessionEpoch = before.sessionEpoch)
    (hsession : a.deadline = before.deadline ∨ (a.deadline = none ∧ ∀ id, a.requestDeadlines id = none)) :
    Ready before a' := by
  refine ⟨h.epoch.trans hepoch, ?_, h.served⟩
  rcases h.session with hsame | hended
  · rcases hsession with hfirst | ⟨hnone, htable⟩
    · exact Or.inl (hsame.trans hfirst)
    · refine Or.inr ⟨hsame.trans hnone, fun id => ?_⟩
      by_contra hsome
      obtain ⟨deadline, hdeadline⟩ := Option.ne_none_iff_exists'.mp hsome
      have hbefore := (h.table id deadline hdeadline).1
      rw [htable id] at hbefore
      simp at hbefore
  · exact Or.inr hended

/-- At the call's last reading of the clock nothing stood against the request: neither its deadline nor
the session's was passed and no revocation of the session was published, unless the session was locked
when the call began; the agent was not revoked and admission not closed. -/
structure Live (query : SignedStatusQuery) (g : Noted) : Prop where
  deadline : ∃ deadline, g.read.authority.requestDeadlines query.requestId = some deadline ∧
    g.read.clock < deadline
  session : ∀ deadline, g.taken.authority.deadline = some deadline →
    g.read.authority.deadline = some deadline ∧ g.read.clock < deadline ∧
      g.read.authority.sessionEpoch = g.taken.authority.sessionEpoch ∧
      g.read.revocationEpoch = g.read.authority.sessionEpoch
  token : ∃ cell, lookupKey g.read.agentTokens query.bindingId = some cell ∧ g.read.flag cell = false
  closing : g.read.closing = false

/-- An answer that is pending or approved, for a request that is not claimed, says that. -/
def Tells (query : SignedStatusQuery) (answer : AgentStatus) (g : Noted) : Prop :=
  answer = .pending ∨ answer = .approved →
    ∀ d, g.read.authority.store.durable.direct query.requestId = some d → d.executionClaimed = false →
      Live query g

section Loop

variable {E : Externals} {ownerUid : UInt32} {t : ℕ} {a : Authority} {now epoch : ℕ} {start : Shared}

/-- INTERNAL: what a look that found nothing passed says. -/
theorem tells_of_looking {query : SignedStatusQuery} {answer : AgentStatus} {status : DirectStatus}
    {m : Shared} {g : Noted} {cell : ℕ} {d : DirectRecord} (hready : Ready start.authority a)
    (hlooking : Looking t a start m g) (hd : a.store.durable.direct query.requestId = some d)
    (hstatus : d.review.status = status)
    (hcrossed : ¬ Crossed query.requestId status a g.read.clock g.read.revocationEpoch)
    (hcell : lookupKey start.agentTokens query.bindingId = some cell) (hlive : g.read.flag cell = false)
    (hclosing : g.read.closing = false)
    (hanswer : answer = .pending ∨ answer = .approved → status = .pending ∨ status = .approved) :
    Tells query answer g := by
  intro hkind d' hd' hclaimed
  rw [hlooking.authority, hd, Option.some.injEq] at hd'
  subst hd'
  have hwaiting := hanswer hkind
  obtain ⟨r, hr, hdirect⟩ := Option.bind_eq_some_iff.mp hd
  obtain ⟨hmem, hid⟩ := mem_of_request _ query.requestId r hr
  obtain ⟨deadline, hdeadline⟩ := hready.served r hmem ⟨d, hdirect, hclaimed, by rw [hstatus]; exact hwaiting⟩
  rw [hid] at hdeadline
  simp only [Crossed, not_or, not_exists, not_and] at hcrossed
  obtain ⟨hsession, hrequest⟩ := hcrossed
  refine ⟨⟨deadline, ?_, ?_⟩, ?_, ⟨cell, ?_, hlive⟩, hclosing⟩
  · rw [hlooking.authority]
    exact hdeadline
  · exact Nat.lt_of_not_le (hrequest hwaiting deadline hdeadline)
  · rw [hlooking.known.taken, hlooking.authority]
    intro session hopen
    rcases hready.session with hsame | ⟨-, hnone⟩
    · have hsome : a.deadline = some session := hsame.trans hopen
      obtain ⟨hahead, hcurrent⟩ := hsession session hsome
      rw [not_not] at hcurrent
      exact ⟨hsome, Nat.lt_of_not_le hahead, hready.epoch, hcurrent⟩
    · rw [hnone] at hdeadline
      simp at hdeadline
  · rw [hlooking.tokens]
    exact hcell

/-- What a call says when it ends. -/
def Said (query : SignedStatusQuery) : Except AgentRejection AgentStatus → Shared → Noted → Prop :=
  Either (fun answer _ g => Tells query answer g) fun _ _ _ => True

/-- What one look ends with: an answer, or something was passed. -/
def Looked (t : ℕ) (query : SignedStatusQuery) (status : DirectStatus) (a : Authority) (now epoch : ℕ)
    (start : Shared) : Except AgentRejection (Option AgentStatus) → Shared → Noted → Prop :=
  Either (fun answer m g => match answer with
      | some answer => Tells query answer g
      | none => ∃ time since, now ≤ time ∧ epoch ≤ since ∧ Crossed query.requestId status a time since ∧
        At t a time since start m g)
    fun _ _ _ => True

/-- INTERNAL: **one look.** -/
theorem leads_look {query : SignedStatusQuery} {status : DirectStatus} {cell : ℕ} {d : DirectRecord}
    (hready : Ready start.authority a) (hd : a.store.durable.direct query.requestId = some d)
    (hstatus : d.review.status = status)
    (hcell : lookupKey start.agentTokens query.bindingId = some cell) :
    (setting E ownerUid t).Leads (At t a now epoch start) (withLock .releaseGate .unavailable (do
      if ← crossed query.requestId status then pure none
      else
        if !(← tokenLive (some cell)) then throw .unauthorized
        if ← act .loadClosing then throw .unavailable
        pure (some (← project status))) : App AgentRejection (Option AgentStatus)).run
      (Looked t query status a now epoch start) := by
  apply leads_withLock
  · intro result m m₁ g hothers h
    rcases result with e | ⟨_ | answer⟩
    · trivial
    · obtain ⟨time, since, hnow, hepoch, hcrossed, hm⟩ := h
      exact ⟨time, since, hnow, hepoch, hcrossed, at_stable m m₁ g hothers hm⟩
    · exact h
  · intro result m g h
    rcases result with e | ⟨_ | answer⟩
    · trivial
    · obtain ⟨time, since, hnow, hepoch, hcrossed, hm⟩ := h
      refine ⟨time, since, hnow, hepoch, hcrossed, hm.same (same_drop m .releaseGate) ?_ rfl⟩
      have hgate := hm.gate
      simpa [Holds, Shared.drop] using hgate
    · exact h
  · exact fun _ _ _ => trivial
  apply leads_bind leads_crossed
  intro passed
  split_ifs with hpassed
  · apply leads_pure
    rintro m g ⟨hcrossed, hnow, hepoch, hlooking⟩
    exact ⟨_, _, hnow, hepoch, hcrossed.mp hpassed, hlooking.known⟩
  apply leads_bind (R := fun live m g => live = !g.read.flag cell ∧ Looking t a start m g ∧
    ¬ Crossed query.requestId status a g.read.clock g.read.revocationEpoch)
  · apply Leads.conseq leads_tokenLive ?_ fun _ _ _ h => h
    rintro m g ⟨hcrossed, -, -, hlooking⟩
    exact ⟨hlooking, fun h => hpassed (hcrossed.mpr h)⟩
  intro live
  split_ifs with hdead
  · exact leads_throwBind fun _ _ _ => trivial
  apply leads_bind (R := fun closing m g => closing = g.read.closing ∧ Looking t a start m g ∧
    ¬ Crossed query.requestId status a g.read.clock g.read.revocationEpoch ∧ g.read.flag cell = false)
  · apply Leads.conseq leads_loadClosing ?_ fun _ _ _ h => h
    rintro m g ⟨rfl, hlooking, hcrossed⟩
    exact ⟨hlooking, hcrossed, by simpa using hdead⟩
  intro closing
  split_ifs with hclosing
  · exact leads_throwBind fun _ _ _ => trivial
  apply leads_bind (leads_project fun _ _ _ => trivial)
  intro answer
  apply leads_fact
  intro hanswer
  apply leads_pure
  rintro m g ⟨rfl, hlooking, hcrossed, hlive⟩
  exact tells_of_looking hready hlooking hd hstatus hcrossed hcell hlive (by simpa using hclosing) hanswer

/-- INTERNAL: **the loop ends, after at most one look more than there are deadlines left.** -/
theorem leads_snapshot {query : SignedStatusQuery} {owner : AgentOwner} {uid : UInt32} {groups : List UInt32}
    {cell : ℕ} (hcell : lookupKey start.agentTokens query.bindingId = some cell) (rounds : ℕ)
    (hready : Ready start.authority a) (hepoch : a.sessionEpoch ≤ epoch)
    (hleft : left query.requestId a < rounds) :
    (setting E ownerUid t).Leads (At t a now epoch start)
      (snapshot owner cell uid groups query.requestId rounds).run (Said query) := by
  induction rounds generalizing a now epoch with
  | zero => exact absurd hleft (Nat.not_lt_zero _)
  | succ rounds ih =>
    unfold snapshot
    apply leads_bind (leads_storedStatus fun _ _ _ => trivial)
    intro status
    apply leads_fact
    rintro ⟨d, hd, hstatus⟩
    apply leads_bind
    · apply Leads.conseq (leads_look hready hd hstatus hcell) (fun _ _ h => h)
      intro result m g h
      cases result with
      | ok answer => exact h
      | error e => exact trivial
    intro answer
    cases answer with
    | some answer => exact leads_pure fun _ _ h => h
    | none =>
      apply leads_exists
      intro time
      apply leads_exists
      intro since
      apply leads_fact
      intro _
      apply leads_fact
      intro hsince
      apply leads_fact
      intro hcrossed
      apply leads_bind (leads_refresh fun _ _ _ => trivial)
      intro _
      apply leads_exists
      intro a'
      apply leads_fact
      intro hrefreshed
      have hlater : a.sessionEpoch ≤ since := hepoch.trans hsince
      have hfewer := left_lt hcrossed hrefreshed hlater
      apply ih (hrefreshed.ready hready.epoch hready.session)
      · rw [hrefreshed.epoch]
        exact hlater
      · omega

end Loop

/-! ## The call -/

section Call

variable {E : Externals} {ownerUid : UInt32} {t : ℕ} {a : Authority} {now epoch : ℕ} {start : Shared}
variable {ε α : Type}

/-- INTERNAL: the table of the tokens is looked up. -/
theorem leads_lookupToken {id : String} {F : ε → Shared → Noted → Prop} :
    (setting E ownerUid t).Leads (At t a now epoch start) (act (.lookupToken id) : App ε (Option ℕ)).run
      (Either (fun found m g => found = lookupKey start.agentTokens id ∧ At t a now epoch start m g) F) := by
  apply leads_at rfl (by simp) (by simp)
  intro m g input answer m₁ g₁ hm hm₁ hperform
  refine ⟨?_, hm₁⟩
  rw [← (Prod.mk.inj (Option.some.inj hperform)).1, ← hm.tokens]

/-- INTERNAL: the token of the agent. -/
theorem leads_agentToken {id : String} {F : DirectRequestError → Shared → Noted → Prop}
    (hF : ∀ e m g, F e m g) :
    (setting E ownerUid t).Leads (At t a now epoch start) (agentToken id).run
      (Either (fun cell m g => lookupKey start.agentTokens id = some cell ∧ At t a now epoch start m g) F) := by
  have hends : ∀ result m g, (Either (fun cell m g => lookupKey start.agentTokens id = some cell ∧
      At t a now epoch start m g) (fun _ _ _ => True) : Except DirectRequestError ℕ → _) result m g →
      (Either (fun cell m g => lookupKey start.agentTokens id = some cell ∧ At t a now epoch start m g) F)
        result m g := by
    intro result m g h
    cases result with
    | ok cell => exact h
    | error e => exact hF e m g
  apply Leads.conseq ?_ (fun _ _ h => h) hends
  unfold agentToken
  apply leads_withLock
  · intro result m m₁ g hothers h
    cases result with
    | ok cell => exact ⟨h.1, at_stable m m₁ g hothers h.2⟩
    | error e => trivial
  · intro result m g h
    cases result with
    | ok cell =>
      refine ⟨h.1, h.2.same (same_drop m .agentTokens) ?_ rfl⟩
      have hgate := h.2.gate
      simpa [Holds, Shared.drop] using hgate
    | error e => trivial
  · exact fun _ _ _ => trivial
  apply leads_bind (R := fun found m g => found = lookupKey start.agentTokens id ∧ At t a now epoch start m g)
  · exact leads_lookupToken.conseq (fun _ _ h => h.1) fun _ _ _ h => h
  intro found
  apply leads_fact
  rintro rfl
  cases hfound : lookupKey start.agentTokens id with
  | none => exact leads_throw fun _ _ _ => trivial
  | some cell => exact leads_pure fun m g hm => ⟨rfl, hm⟩

theorem leads_any {x : Act} {P : Shared → Noted → Prop} {Q : Except ε (Ans x) → Shared → Noted → Prop}
    (hgood : x ≠ .stall) (hQ : ∀ answer m g, Q (.ok answer) m g) :
    (setting E ownerUid t).Leads P (act x : App ε (Ans x)).run Q := by
  intro m g _
  exact ⟨hgood, fun m₁ _ input answer m₂ _ => hQ answer m₂ _⟩

/-- INTERNAL: admission is closed. -/
theorem leads_closeAdmission {P : Shared → Noted → Prop} :
    (setting E ownerUid t).Leads P (closeAdmission : App ε Unit).run fun _ _ _ => True := by
  unfold closeAdmission
  apply leads_bind (R := fun _ _ _ => True) (leads_any (by simp) fun _ _ _ => trivial)
  intro _
  apply leads_bind (R := fun _ _ _ => True) (leads_any (by simp) fun _ _ _ => trivial)
  intro _
  exact leads_any (by simp) fun _ _ _ => trivial

/-- INTERNAL: an answer is passed on. -/
theorem leads_closingIfUnavailable {query : SignedStatusQuery} {P : Shared → Noted → Prop}
    {x : App AgentRejection AgentStatus} (hx : (setting E ownerUid t).Leads P x.run (Said query)) :
    (setting E ownerUid t).Leads P (closingIfUnavailable x).run (Said query) := by
  unfold closingIfUnavailable
  apply leads_bind (R := Said query) (leads_attempt hx)
  intro result
  have hraise : ∀ (e : AgentRejection) (P : Shared → Noted → Prop), (setting E ownerUid t).Leads P
      (raise (.error e) : App AgentRejection AgentStatus).run (Said query) :=
    fun e P => leads_throw fun _ _ _ => trivial
  cases result with
  | ok answer => exact leads_pure fun _ _ h => h
  | error e =>
    cases e with
    | unavailable =>
      apply leads_bind (R := fun _ _ _ => True)
      · apply Leads.conseq leads_closeAdmission (fun _ _ h => h)
        intro result m g _
        cases result with
        | ok _ => trivial
        | error e => trivial
      · exact fun _ => hraise _ _
    | _ => exact hraise _ _

/-- INTERNAL: the agent's binding is the one the query names. -/
theorem bindingId_of_authenticate {s : ProviderState} {uid : UInt32} {groups : List UInt32}
    {query : SignedStatusQuery} {owner : AgentOwner}
    (h : authenticateStatusQuery E ownerUid s uid groups query = .ok owner) :
    owner.bindingId = query.bindingId := by
  unfold authenticateStatusQuery at h
  split_ifs at h
  split at h
  · simp at h
  · rename_i binding hbinding
    have hid : binding.id = query.bindingId := by
      have hfound := List.find?_some hbinding
      simp only [Bool.and_eq_true, decide_eq_true_eq] at hfound
      exact hfound.1
    simp only [bind, Except.bind, pure, Except.pure] at h
    split at h
    · simp at h
    · split at h
      · simp at h
      · rw [Except.ok.injEq] at h
        rw [← h]
        exact hid

/-- INTERNAL: **what the call does while it holds the gate.** -/
theorem leads_underGate {uid : UInt32} {groups : List UInt32} {query : SignedStatusQuery} {rounds : ℕ}
    (hrounds : 3 ≤ rounds) (ha : a = start.authority) (hepoch : a.sessionEpoch ≤ epoch) :
    (setting E ownerUid t).Leads (At t a now epoch start) (do
      let s ← ofExcept (fun _ => .unavailable) (← act .readState)
      let owner ← raise (authenticateStatusQuery E ownerUid s uid groups query)
      let token ← (agentToken owner.bindingId).adapt .ofDirect
      if !(← tokenLive (some token)) then throw .unauthorized
      if ← act .loadClosing then throw .unavailable
      refresh
      raise (← act (.provider (.consumeStatusQuery owner query)))
      refresh
      snapshot owner token uid groups query.requestId rounds : App AgentRejection AgentStatus).run
      (Said query) := by
  have hF : ∀ (e : AgentRejection) (m : Shared) (g : Noted), Said query (.error e) m g := fun _ _ _ => trivial
  apply leads_bind leads_readState
  intro answer
  apply leads_fact
  intro _
  cases answer with
  | error e => exact leads_throwBind fun _ _ _ => hF _ _ _
  | ok s =>
    show (setting E ownerUid t).Leads _ (raise (authenticateStatusQuery E ownerUid s uid groups query) >>= _ :
      App AgentRejection AgentStatus).run _
    cases howner : authenticateStatusQuery E ownerUid s uid groups query with
    | error e => exact leads_throwBind fun _ _ _ => hF _ _ _
    | ok owner =>
      have hid := bindingId_of_authenticate howner
      apply leads_bind (R := fun cell m g => lookupKey start.agentTokens query.bindingId = some cell ∧
        At t a now epoch start m g)
      · apply leads_adapt
        rw [hid]
        exact leads_agentToken fun _ _ _ => trivial
      intro cell
      apply leads_fact
      intro hcell
      apply leads_bind (R := fun _ => At t a now epoch start)
      · unfold tokenLive
        apply leads_bind (leads_plain rfl (by simp) (by simp))
        intro flag
        exact leads_pure fun _ _ h => h
      intro live
      split_ifs
      · exact leads_throwBind fun _ _ _ => hF _ _ _
      apply leads_bind (leads_plain rfl (by simp) (by simp))
      intro closing
      split_ifs
      · exact leads_throwBind fun _ _ _ => hF _ _ _
      apply leads_bind (leads_refresh hF)
      intro _
      apply leads_exists
      intro a₁
      apply leads_fact
      intro hfirst
      apply leads_bind leads_provider
      intro consumed
      apply leads_exists
      intro env
      apply leads_exists
      intro w
      apply leads_exists
      intro unreadable
      apply leads_fact
      intro _
      cases consumed with
      | error e => exact leads_throwBind fun _ _ _ => hF _ _ _
      | ok value =>
        apply leads_bind (leads_refresh hF)
        intro _
        apply leads_exists
        intro a₂
        apply leads_fact
        intro hsecond
        have hsame : a₂.sessionEpoch = a.sessionEpoch := hsecond.epoch.trans hfirst.epoch
        apply leads_snapshot hcell rounds (hsecond.ready ?_ ?_)
        · rw [hsame]
          exact hepoch
        · have := left_le query.requestId a₂
          omega
        · exact hfirst.epoch.trans (by rw [ha])
        · rw [← ha]
          exact hfirst.session

/-- INTERNAL: **a status query.** -/
theorem leads_signedAgentStatus (uid : UInt32) (groups : List UInt32) (query : SignedStatusQuery) {rounds : ℕ}
    (hrounds : 3 ≤ rounds) :
    (setting E ownerUid t).Leads (fun m _ => m.authority.sessionEpoch ≤ m.revocationEpoch)
      (signedAgentStatus E ownerUid uid groups query rounds).run (Said query) := by
  have hstable : (setting E ownerUid t).Stable fun m _ => m.authority.sessionEpoch ≤ m.revocationEpoch :=
    fun m m₁ g hothers h => Others.session hothers h
  unfold signedAgentStatus
  apply leads_closingIfUnavailable
  apply leads_bind (R := fun _ m _ => m.authority.sessionEpoch ≤ m.revocationEpoch)
  · apply leads_act hstable (by intro h; simp at h)
    intro m g input answer m₁ hm hperform
    rw [← (Prod.mk.inj (Option.some.inj hperform)).2]
    exact hm
  intro closing
  split_ifs
  · exact leads_throwBind fun _ _ _ => trivial
  unfold withTryLock
  apply leads_bind (R := fun answer m g => answer = .acquired → ∃ start now epoch,
    start.authority.sessionEpoch ≤ epoch ∧ At t start.authority now epoch start m g)
  · apply leads_act hstable (by intro h; simp at h)
    intro m g input answer m₁ hm hperform hacquired
    have hperform : performAct E ownerUid t (.tryAcquire .gate) input m = some (answer, m₁) := hperform
    simp only [performAct] at hperform
    split_ifs at hperform
    · rw [← (Prod.mk.inj (Option.some.inj hperform)).1] at hacquired
      simp at hacquired
    · rw [← (Prod.mk.inj (Option.some.inj hperform)).1] at hacquired
      simp at hacquired
    · rw [← (Prod.mk.inj (Option.some.inj hperform)).2]
      refine ⟨m, m.clock, m.revocationEpoch, hm, ?_⟩
      exact ⟨by simp [Holds, Shared.take], rfl, Nat.le_refl _, Nat.le_refl _, rfl, rfl⟩
  intro answer
  cases answer with
  | busy => exact leads_throw fun _ _ _ => trivial
  | poisoned => exact leads_throw fun _ _ _ => trivial
  | acquired =>
    apply leads_holding
    · intro result m m₁ g _ h
      cases result with
      | ok answer => exact h
      | error e => trivial
    · intro result m g h
      cases result with
      | ok answer => exact h
      | error e => trivial
    · rintro m g h
      obtain ⟨start, now, epoch, hepoch, hm⟩ := h rfl
      exact leads_underGate hrounds rfl hepoch m g hm

end Call

/-! ## Runs of the system -/

section Runs

variable {E : Externals} {ownerUid : UInt32} {requestLifetime t : ℕ}

/-- INTERNAL: what the discipline lets others do. -/
theorem others_of_relies {m m₁ : Shared} (h : (discipline E ownerUid requestLifetime).Relies t m m₁) :
    Others t m m₁ := by
  rcases h with rfl | ⟨-, hinv, hrely⟩
  · exact Others.refl t m₁
  have hinv : Inv E m₁ := hinv
  have hrely : Rely t m m₁ := hrely
  refine ⟨hrely.clock, hrely.epoch, fun _ => hinv.session, hrely.holder, ?_, hrely.both⟩
  intro hgate
  obtain ⟨hauthority, -, htokens⟩ := hrely.gate hgate
  exact ⟨hauthority, htokens⟩

/-- How far a status query comes, amid whatever others do. -/
def Comes (E : Externals) (ownerUid : UInt32) (t : ℕ) (uid : UInt32) (groups : List UInt32)
    (query : SignedStatusQuery) (rounds : ℕ) (m : Shared) (q : Prog Act Ans (Except AgentRejection AgentStatus))
    (m' : Shared) (g : Noted) : Prop :=
  (setting E ownerUid t).Amid (signedAgentStatus E ownerUid uid groups query rounds).run m ⟨m, m⟩ q m' g

/-- INTERNAL: a call of a run, amid the others of the run. -/
theorem amid_of_runSystem (events later : List (SystemEvent Input ℕ Restart Call)) {call : Call} {m : Shared}
    (hspawn : (machine E ownerUid requestLifetime).spawn t call (runSystem E ownerUid requestLifetime events).mem =
      some m) (hspares : ∀ event ∈ later, Spares t event) :
    ∃ q g, (runSystem E ownerUid requestLifetime (events ++ .spawn t call :: later)).threads t = some q ∧
      (setting E ownerUid t).Amid (Application.code E ownerUid requestLifetime call) m ⟨m, m⟩ q
        (runSystem E ownerUid requestLifetime (events ++ .spawn t call :: later)).mem g := by
  have hsplit : runSystem E ownerUid requestLifetime (events ++ .spawn t call :: later) =
      (runSystem E ownerUid requestLifetime (events ++ [.spawn t call])).run
        (machine E ownerUid requestLifetime) later := by
    simp [runSystem, System.run]
  have hspawned : runSystem E ownerUid requestLifetime (events ++ [.spawn t call]) =
      System.set { runSystem E ownerUid requestLifetime events with mem := m } t
        (Application.code E ownerUid requestLifetime call) := by
    unfold runSystem System.run at hspawn ⊢
    rw [List.foldl_append, List.foldl_cons, List.foldl_nil]
    simp only [System.step, hspawn]
    rfl
  have hdisciplined := runSystem_disciplined E ownerUid requestLifetime (events ++ [.spawn t call])
  have hthread : (runSystem E ownerUid requestLifetime (events ++ [.spawn t call])).threads t =
      some (Application.code E ownerUid requestLifetime call) := by
    rw [hspawned]
    simp [System.set]
  obtain ⟨q, g, hq, hamid⟩ := amid_run noteAct (fun a => a ≠ .stall)
    (code_disciplined E ownerUid requestLifetime) later hdisciplined hthread ⟨m, m⟩ hspares
  have hmem : (runSystem E ownerUid requestLifetime (events ++ [.spawn t call])).mem = m := by
    rw [hspawned]
    rfl
  rw [hsplit]
  refine ⟨q, g, hq, ?_⟩
  rw [hmem] at hamid
  exact hamid.mono rfl rfl fun m m₁ h => others_of_relies h

/-- INTERNAL: a status query never comes to a fourth look. -/
theorem not_stall {uid : UInt32} {groups : List UInt32} {query : SignedStatusQuery} {rounds : ℕ}
    {m m' : Shared} {g : Noted} {next : Ans .stall → Prog Act Ans (Except AgentRejection AgentStatus)}
    (hrounds : 3 ≤ rounds) (hsession : m.authority.sessionEpoch ≤ m.revocationEpoch) :
    ¬ Comes E ownerUid t uid groups query rounds m (.act .stall next) m' g := by
  intro h
  have hsure : (setting E ownerUid t).Sure (Said query) _ m ⟨m, m⟩ :=
    leads_signedAgentStatus uid groups query hrounds m ⟨m, m⟩ hsession
  exact hsure.good h rfl

/-- INTERNAL: what a status query says when it ends. -/
theorem tells_of_comes {uid : UInt32} {groups : List UInt32} {query : SignedStatusQuery} {rounds : ℕ}
    {m m' : Shared} {g : Noted} {answer : AgentStatus} (hrounds : 3 ≤ rounds)
    (hsession : m.authority.sessionEpoch ≤ m.revocationEpoch)
    (h : Comes E ownerUid t uid groups query rounds m (.done (.ok answer)) m' g) : Tells query answer g := by
  have hsure : (setting E ownerUid t).Sure (Said query) _ m ⟨m, m⟩ :=
    leads_signedAgentStatus uid groups query hrounds m ⟨m, m⟩ hsession
  obtain ⟨m₁, -, hsaid⟩ := hsure.ended h
  exact hsaid

end Runs

/-- A thread of a run that is past its status query. -/
def Past (E : Externals) (ownerUid : UInt32) (t : ℕ) (uid : UInt32) (groups : List UInt32)
    (query : SignedStatusQuery) (m : Shared) : Prop :=
  ∃ result m₁ g, Comes E ownerUid t uid groups query 3 m (.done result) m₁ g

/-- **How often a status query looks, and what it says of its last look.** -/
structure Rounded (E : Externals) (ownerUid : UInt32) (requestLifetime : ℕ) : Prop where
  /-- Three looks are enough, whatever others do in between. -/
  ends : ∀ t uid groups query m m' g next, m.authority.sessionEpoch ≤ m.revocationEpoch →
    ¬ Comes E ownerUid t uid groups query 3 m (.act .stall next) m' g
  tells : ∀ t uid groups query m m' g answer, m.authority.sessionEpoch ≤ m.revocationEpoch →
    Comes E ownerUid t uid groups query 3 m (.done (.ok answer)) m' g → Tells query answer g
  /-- No revocation of a later session has been published in any state that a run reaches. -/
  reached : ∀ events, (runSystem E ownerUid requestLifetime events).mem.authority.sessionEpoch ≤
    (runSystem E ownerUid requestLifetime events).mem.revocationEpoch
  /-- A call of a run comes as far as it does here: it is under way, or past its query. -/
  runs : ∀ events later t uid groups query m,
    (machine E ownerUid requestLifetime).spawn t (.signedAgentStatus uid groups query 3)
      (runSystem E ownerUid requestLifetime events).mem = some m →
    (∀ event ∈ later, Spares t event) →
    ∃ q, (runSystem E ownerUid requestLifetime
        (events ++ .spawn t (.signedAgentStatus uid groups query 3) :: later)).threads t = some q ∧
      ((∃ (p : Prog Act Ans (Except AgentRejection AgentStatus)) (f : _ → Prog Act Ans Unit) (g : Noted),
          q = (p >>= f) ∧ Comes E ownerUid t uid groups query 3 m p
            (runSystem E ownerUid requestLifetime
              (events ++ .spawn t (.signedAgentStatus uid groups query 3) :: later)).mem g) ∨
        Past E ownerUid t uid groups query m)

/-- **A status query looks at most three times, and an answer that is pending or approved was true at
its last reading of the clock.** -/
theorem rounds_signedAgentStatus (E : Externals) (ownerUid : UInt32) (requestLifetime : ℕ) :
    Rounded E ownerUid requestLifetime where
  ends _ _ _ _ _ _ _ _ hsession := not_stall (Nat.le_refl 3) hsession
  tells _ _ _ _ _ _ _ _ hsession := tells_of_comes (Nat.le_refl 3) hsession
  reached events := (runSystem_inv E ownerUid requestLifetime events).session
  runs events later t uid groups query m hspawn hspares := by
    obtain ⟨q, g, hq, hamid⟩ := amid_of_runSystem events later hspawn hspares
    refine ⟨q, hq, ?_⟩
    rcases Amid.bind_cases hamid with ⟨p, hp, rfl⟩ | ⟨result, m₁, g₁, hp, -⟩
    · exact Or.inl ⟨p, _, g, rfl, hp⟩
    · exact Or.inr ⟨result, m₁, g₁, hp⟩

end VaultAccess.Analysis.Rounds
