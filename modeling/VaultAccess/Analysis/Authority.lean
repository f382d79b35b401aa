import VaultAccess.Analysis.Serial

/-!
# Revocations and sessions

What `revoke`, `admit` and the entry points that open, close and use a session do, whatever
their cleanups, probes and unlocks answer.
-/

set_option autoImplicit false

namespace VaultAccess.Analysis.Serial

open VaultAccess.Library VaultAccess.Model VaultAccess.Model.Application VaultAccess.Model.Serial

/-! ## Revocation -/

/-- The view after a revocation, with the cleanups that succeeded. -/
def View.after (v : View) (cleared locked failed : Bool) : View where
  deadline := none
  cleanupFailed := failed
  generation := v.generation + 1
  history := { v.history with revokes := v.history.revokes + 1, cleared := cleared, locked := locked }
  deciding := v.deciding

/-- INTERNAL: a revocation keeps the invariant. -/
theorem Session.after {v : View} (h : Session v) (cleared locked failed : Bool)
    (hfailed : failed = false → cleared = true ∧ locked = true) : Session (v.after cleared locked failed) where
  granted := fun d hd => by simp [View.after] at hd
  closed := fun _ => rfl
  cleaned := hfailed
  counted := congrArg (· + 1) h.counted
  decided := h.decided
  prepared := h.prepared

/-- INTERNAL: a revocation goes on. -/
theorem Session.again {v : View} {cleared locked failed : Bool} (h : Session (v.after cleared locked failed))
    (cleared' locked' failed' : Bool) (hfailed : failed' = false → cleared' = true ∧ locked' = true) :
    Session (v.after cleared' locked' failed') where
  granted := fun d hd => by simp [View.after] at hd
  closed := fun _ => rfl
  cleaned := hfailed
  counted := h.counted
  decided := h.decided
  prepared := h.prepared

/-- A memory after a revocation. -/
structure Revoked (m₀ : Memory) (cleared locked failed : Bool) (m : Memory) : Prop where
  view : view m = (view m₀).after cleared locked failed
  clock : m₀.shared.clock ≤ m.shared.clock
  epoch : epoch m₀ ≤ epoch m
  locked : locked = true → Serial.epoch m₀ < Serial.epoch m ∧ Current m.shared.authority.store.durable

section Revocation

variable {E : Externals} {ownerUid : UInt32}

/-- INTERNAL: what an update does to a memory. -/
theorem perform_update {u : AuthorityUpdate} {moment : Moment} {answer : Unit} {m m₁ : Memory}
    (h : perform E ownerUid (.update u) moment m = some (answer, m₁)) :
    m₁.shared.authority = u.apply m.shared.authority ∧
      (∀ generation, u = .revoked generation → m₁.history = { m.history with
        revokes := m.history.revokes + 1, cleared := false, locked := false }) ∧
      ((∀ generation, u ≠ .revoked generation) → m₁.history = m.history) ∧ m₁.deciding = m.deciding := by
  obtain ⟨shared, hperform, rfl⟩ := perform_eq h
  obtain ⟨hsame, -⟩ := performAct_update hperform
  obtain ⟨hauthority, -⟩ := before_spec (.update u) moment m
  refine ⟨by rw [← hauthority]; exact hsame, fun generation hu => by rw [hu]; rfl, fun hu => ?_, rfl⟩
  cases u with
  | revoked generation => exact absurd rfl (hu generation)
  | _ => rfl

/-- INTERNAL: the authority as it is read. -/
theorem does_readAuthority {ε : Type} (m₀ : Memory) :
    Does E ownerUid (Calm m₀) (act .readAuthority : App ε Authority) fun result m =>
      ∃ a, result = .ok a ∧ a.deadline = (view m₀).deadline ∧
        a.cleanupFailed = (view m₀).cleanupFailed ∧ a.generation = (view m₀).generation ∧ Calm m₀ m := by
  refine Does.act fun moment answer m m₁ hperform hm hcalm => ?_
  obtain ⟨hm₁, hnext⟩ := perform_calm rfl hperform hm
  refine ⟨hm₁, answer, rfl, ?_⟩
  obtain ⟨shared, hact, -⟩ := perform_eq hperform
  obtain ⟨hauthority, -⟩ := before_spec .readAuthority moment m
  have hanswer : answer = m.shared.authority := by
    rw [← hauthority]
    exact (Prod.mk.inj (Option.some.inj hact)).1.symm
  rw [hanswer, ← hcalm.view]
  exact ⟨rfl, rfl, rfl, hcalm.trans hnext⟩

/-- INTERNAL: the authority is revoked. -/
theorem does_revoked {ε : Type} (m₀ : Memory) (generation : ℕ)
    (hgeneration : generation = (view m₀).generation + 1) :
    Does E ownerUid (Calm m₀) (act (.update (.revoked generation)) : App ε Unit) fun result m =>
      result.isOk = true ∧ Revoked m₀ false false true m := by
  refine Does.act fun moment answer m m₁ hperform hm hcalm => ?_
  obtain ⟨hphase, hclock, hepoch, -⟩ := perform_later hperform hm.phase
  obtain ⟨hauthority, hhistory, -, hdeciding⟩ := perform_update hperform
  have hview : view m₁ = (view m₀).after false false true := by
    rw [← hcalm.view]
    rw [← hcalm.view] at hgeneration
    simp only [view, hauthority, hhistory generation rfl, hdeciding, hgeneration]
    rfl
  refine ⟨⟨hphase, ?_⟩, rfl, hview, Nat.le_trans hcalm.clock hclock, Nat.le_trans hcalm.epoch hepoch,
    fun h => by simp at h⟩
  rw [hview, ← hcalm.view]
  exact hm.session.after _ _ _ (by simp)

/-- INTERNAL: the backend is cleared. -/
theorem does_clear {ε : Type} (m₀ : Memory) :
    Does E ownerUid (Revoked m₀ false false true) (act (.backend .clear) : App ε (Except SessionError Unit))
      fun result m => ∃ answer, result = .ok answer ∧ Revoked m₀ answer.isOk false true m := by
  refine Does.act fun moment answer m m₁ hperform hm hrevoked => ?_
  obtain ⟨hphase, hclock, hepoch, hcurrent⟩ := perform_later hperform hm.phase
  have hview : view m₁ = (view m₀).after answer.isOk false true := by
    obtain ⟨shared, hact, rfl⟩ := perform_eq hperform
    obtain ⟨hsame, -⟩ := performAct_still rfl hact
    obtain ⟨hauthority, -⟩ := before_spec (.backend .clear) moment m
    have hold := hrevoked.view
    simp only [view, hsame, hauthority]
    simp only [view, View.after, View.mk.injEq] at hold ⊢
    obtain ⟨hdeadline, hfailed, hgeneration, hhistory, hdeciding⟩ := hold
    refine ⟨hdeadline, hfailed, hgeneration, ?_, hdeciding⟩
    simp only [note, hhistory]
  refine ⟨⟨hphase, ?_⟩, answer, rfl, hview, Nat.le_trans hrevoked.clock hclock,
    Nat.le_trans hrevoked.epoch hepoch, fun h => by simp at h⟩
  have hsession := hm.session
  rw [hrevoked.view] at hsession
  rw [hview]
  exact hsession.again _ _ _ (by simp)

/-- INTERNAL: a lock that succeeds leaves a later epoch and nothing of an earlier one. -/
theorem call_lock (store : Store) (env : Env) (w : WriteOutcome) (unreadable : Bool)
    (h : (store.call E ownerUid .lock env w unreadable).2.isOk = true) :
    store.durable.lifecycleEpoch <
        (store.call E ownerUid .lock env w unreadable).1.durable.lifecycleEpoch ∧
      Current (store.call E ownerUid .lock env w unreadable).1.durable := by
  cases hresult : (store.call E ownerUid .lock env w unreadable).2 with
  | error e => simp [hresult, Except.isOk, Except.toBool] at h
  | ok value =>
    obtain ⟨s, hreads, handed, heval, -, -, hsome⟩ := call_ok store .lock env w unreadable value hresult
    obtain ⟨s', hs', hnext⟩ := invalidate_epoch heval
    obtain ⟨hstore, hvalid⟩ := hsome s' hs'
    have hepoch : s.lifecycleEpoch = store.durable.lifecycleEpoch := by rw [hreads]
    rw [hstore]
    exact ⟨by simp only; omega, current_of_valid hvalid⟩

/-- INTERNAL: the store is locked. -/
theorem does_lock {ε : Type} (m₀ : Memory) (cleared : Bool) :
    Does E ownerUid (Revoked m₀ cleared false true) (act (.provider .lock) : App ε (Ans (.provider .lock)))
      fun result m => ∃ answer, result = .ok answer ∧ Revoked m₀ cleared answer.isOk true m := by
  refine Does.act fun moment answer m m₁ hperform hm hrevoked => ?_
  obtain ⟨hphase, hclock, hepoch, hcurrent⟩ := perform_later hperform hm.phase
  obtain ⟨shared, hact, rfl⟩ := perform_eq hperform
  obtain ⟨hsame, -, hanswer⟩ := performAct_provider hact
  obtain ⟨hauthority, -⟩ := before_spec (.provider .lock) moment m
  have hview : view { m with
      shared := shared
      history := note m.deciding (m.shared.clock + moment.elapsed) (before (.provider .lock) moment m).1
        shared m.history (.provider .lock) answer } = (view m₀).after cleared answer.isOk true := by
    have hold := hrevoked.view
    simp only [view, hsame, hauthority]
    simp only [view, View.after, View.mk.injEq] at hold ⊢
    obtain ⟨hdeadline, hfailed, hgeneration, hhistory, hdeciding⟩ := hold
    refine ⟨hdeadline, hfailed, hgeneration, ?_, hdeciding⟩
    simp only [note, hhistory]
  refine ⟨⟨hphase, ?_⟩, answer, rfl, hview, Nat.le_trans hrevoked.clock hclock,
    Nat.le_trans hrevoked.epoch hepoch, fun hok => ?_⟩
  · have hsession := hm.session
    rw [hrevoked.view] at hsession
    rw [hview]
    exact hsession.again _ _ _ (by simp)
  · rw [hanswer] at hok
    obtain ⟨hlater, hcurrent⟩ := call_lock _ _ _ _ hok
    simp only [epoch, hsame]
    rw [hauthority] at hlater hcurrent
    rw [hauthority]
    exact ⟨Nat.lt_of_le_of_lt hrevoked.epoch hlater, hcurrent⟩

/-- INTERNAL: both cleanups succeeded. -/
theorem does_cleaned {ε : Type} (m₀ : Memory) :
    Does E ownerUid (Revoked m₀ true true true) (act (.update .cleaned) : App ε Unit)
      fun result m => result.isOk = true ∧ Revoked m₀ true true false m := by
  refine Does.act fun moment answer m m₁ hperform hm hrevoked => ?_
  obtain ⟨hphase, hclock, hepoch, hcurrent⟩ := perform_later hperform hm.phase
  obtain ⟨hauthority, -, hhistory, hdeciding⟩ := perform_update hperform
  have hview : view m₁ = (view m₀).after true true false := by
    have hold := hrevoked.view
    simp only [view, hauthority, AuthorityUpdate.apply, hhistory (by simp), hdeciding]
    simp only [view, View.after, View.mk.injEq] at hold ⊢
    obtain ⟨hdeadline, -, hgeneration, hhistory, hdeciding⟩ := hold
    exact ⟨hdeadline, trivial, hgeneration, hhistory, hdeciding⟩
  refine ⟨⟨hphase, ?_⟩, rfl, hview, Nat.le_trans hrevoked.clock hclock,
    Nat.le_trans hrevoked.epoch hepoch, fun hlocked => ?_⟩
  · have hsession := hm.session
    rw [hrevoked.view] at hsession
    rw [hview]
    exact hsession.again _ _ _ fun _ => ⟨rfl, rfl⟩
  · obtain ⟨hlater, hsafe⟩ := hrevoked.locked hlocked
    exact ⟨Nat.lt_of_lt_of_le hlater hepoch, hcurrent hsafe⟩

/-- How a revocation ends: the generation is exhausted, or the authority is revoked. -/
def Ended (m₀ : Memory) (result : Except SessionError Unit) (m : Memory) : Prop :=
  (u64Size ≤ (view m₀).generation + 1 ∧ result.isOk = false ∧ Calm m₀ m) ∨
    ∃ cleared locked, Revoked m₀ cleared locked (!(cleared && locked)) m ∧
      result.isOk = (cleared && locked)

/-- INTERNAL: **a revocation revokes, whatever its cleanups answer.** -/
theorem does_revoke (m₀ : Memory) : Does E ownerUid (Calm m₀) revoke (Ended m₀) := by
  unfold revoke
  refine Does.bind (does_readAuthority m₀) (fun authority => ?_) fun e m _ hm => by simp at hm
  simp only [Except.ok.injEq, exists_eq_left']
  refine Does.extract (fun m hm => hm.2.2.1) fun hgeneration => ?_
  refine Does.imp ?_ (fun m hm => hm.2.2.2) fun _ _ _ h => h
  refine Does.okOr (fun generation hnext => ?_) fun hnext m hm => Or.inl ⟨?_, rfl, hm⟩
  · have hvalue : generation = (view m₀).generation + 1 := by
      rw [← hgeneration]
      unfold checkedAdd at hnext
      split_ifs at hnext
      exact (Option.some.inj hnext).symm
    refine Does.bind (does_revoked m₀ generation hvalue) (fun _ => ?_) fun e m _ hm => by
      simp [Except.isOk, Except.toBool] at hm
    refine Does.imp ?_ (fun m hm => hm.2) fun _ _ _ h => h
    refine Does.bind (does_clear m₀) (fun backend => ?_) fun e m _ hm => by simp at hm
    simp only [Except.ok.injEq, exists_eq_left']
    refine Does.bind (does_lock m₀ backend.isOk) (fun store => ?_) fun e m _ hm => by simp at hm
    simp only [Except.ok.injEq, exists_eq_left']
    split_ifs with hfailed
    · refine Does.throw fun m _ hm => Or.inr ⟨backend.isOk, store.isOk, ?_, ?_⟩
      · rw [← Bool.not_and] at hfailed
        rw [hfailed]
        exact hm
      · rw [← Bool.not_and, Bool.not_eq_true'] at hfailed
        rw [hfailed]
        rfl
    · rw [← Bool.not_and, Bool.not_eq_true, Bool.not_eq_false', Bool.and_eq_true] at hfailed
      rw [hfailed.1, hfailed.2]
      exact (does_cleaned m₀).imp (fun _ hm => hm) fun _ _ _ hm => Or.inr ⟨true, true, hm.2, hm.1⟩
  · rw [← hgeneration]
    unfold checkedAdd at hnext
    split_ifs at hnext with hlt
    omega

theorem fine_revoke : Fine E ownerUid revoke :=
  fun m hm _ => (does_revoke m m hm (Calm.refl m)).mono fun _ _ _ _ => trivial

/-- INTERNAL: admission is calm where it succeeds. -/
theorem careful_admission : Careful E ownerUid admission := by
  intro m₀
  have hrevoke : Does E ownerUid (Calm m₀) (do revoke; throw .locked : App SessionError Unit)
      fun result m => result.isOk = true → Calm m₀ m :=
    Does.bind (Q := fun _ _ => True) ((does_revoke m₀).imp (fun _ hm => hm) fun _ _ _ _ => trivial)
      (fun _ => Does.throw fun _ _ _ hok => by simp [Except.isOk, Except.toBool] at hok)
      fun _ _ _ _ hok => by simp [Except.isOk, Except.toBool] at hok
  unfold admission
  refine Does.bind (Does.quiet rfl (stable_calm m₀)) (fun closing => ?_) fun _ _ _ hm _ => hm.2
  refine Does.imp ?_ (fun m hm => hm.2) fun _ _ _ h => h
  split_ifs
  · exact hrevoke
  · refine Does.bind (Does.quiet rfl (stable_calm m₀)) (fun authority => ?_) fun _ _ _ hm _ => hm.2
    refine Does.imp ?_ (fun m hm => hm.2) fun _ _ _ h => h
    refine Does.okOr (fun deadline _ => ?_) fun _ _ _ hok => by simp [Except.isOk, Except.toBool] at hok
    refine Does.bind (Does.quiet rfl (stable_calm m₀)) (fun now => ?_) fun _ _ _ hm _ => hm.2
    refine Does.imp ?_ (fun m hm => hm.2) fun _ _ _ h => h
    split_ifs
    · exact Does.pure fun m _ hm _ => hm
    · exact hrevoke

/-! ## Entry points -/

theorem quiet_closeAdmission {ε : Type} : Quiet (closeAdmission : App ε Unit) :=
  (Quiet.act rfl).bind fun _ => (Quiet.act rfl).bind fun _ => Quiet.act rfl

/-- INTERNAL: expiry is quiet. -/
theorem quiet_expireRequests : Quiet expireRequests := by
  refine (Quiet.act rfl).bind fun now => (Quiet.act rfl).bind fun authority =>
    (Quiet.act rfl).bind fun expiry => ?_
  split_ifs
  · exact Quiet.act rfl
  · exact Quiet.throw _

/-- INTERNAL: the wait for executions is quiet. -/
theorem quiet_awaitCleanup (ids : Option (List String)) : Quiet (awaitCleanup ids) := by
  refine (Quiet.act rfl).bind fun taken => ?_
  split_ifs
  · exact Quiet.throw _
  · refine (Quiet.act rfl).bind fun active => ?_
    refine Quiet.choose ((Quiet.act rfl).bind fun _ => (Quiet.act rfl).bind fun _ => Quiet.okOr _ _)
      (Quiet.pure _) fun timedOut => ?_
    refine (Quiet.act rfl).bind fun active => ?_
    refine Quiet.choose (Quiet.pure _) (Quiet.act rfl) fun uncertain => ?_
    refine (Quiet.act rfl).bind fun _ => ?_
    split_ifs
    · exact quiet_closeAdmission.bind fun _ => Quiet.throw _
    · exact Quiet.pure _

theorem fine_lock : Fine E ownerUid Application.lock :=
  (Quiet.withLock (Quiet.act rfl)).fine.bind fun _ =>
    (Fine.withLock (Fine.attempt fine_revoke)).bind fun result =>
      (quiet_awaitCleanup none).fine.bind fun _ => (Quiet.ofExcept _ result).fine

/-- INTERNAL: a lock that succeeds leaves nothing of an earlier epoch. -/
theorem does_lock_current : Does E ownerUid (fun _ => True) Application.lock fun result m =>
    result.isOk = true → Current m.shared.authority.store.durable := by
  have hs : ∀ ok : Bool, Stable fun m => ok = true → Current m.shared.authority.store.durable :=
    fun ok m m₁ hcalm hm hok => hcalm.current (hm hok)
  have hrevoke : Does E ownerUid (fun _ => True) (attempt revoke : App SessionError (Except SessionError Unit))
      fun result m => ∀ value, result = .ok value → value.isOk = true →
        Current m.shared.authority.store.durable := by
    refine Does.attempt fun m hm _ => (does_revoke m m hm (Calm.refl m)).mono fun result m₁ _ hended => ?_
    rintro value hvalue hok
    obtain rfl := Except.ok.inj hvalue
    rcases hended with ⟨-, hfailed, -⟩ | ⟨cleared, locked, hrevoked, hresult⟩
    · simp [hfailed] at hok
    · rw [hresult, Bool.and_eq_true] at hok
      exact (hrevoked.locked hok.2).2
  refine Does.bind (Quiet.withLock (Quiet.act rfl)).fine (fun _ => ?_) fun e m _ _ hok => by
    simp [Except.isOk, Except.toBool] at hok
  have hgate : Does E ownerUid (fun _ => True) (withLock .gate SessionError.cleanupFailed (attempt revoke))
      fun result m => ∀ value, result = .ok value → value.isOk = true →
        Current m.shared.authority.store.durable :=
    Does.withLock (fun _ _ _ h => h)
      (fun result => show Stable _ from fun m m₁ hcalm hm value hvalue hok => hcalm.current (hm value hvalue hok))
      hrevoke fun m _ value hvalue => by simp at hvalue
  refine Does.bind hgate (fun result => ?_) fun e m _ _ hok => by simp [Except.isOk, Except.toBool] at hok
  refine Does.imp (P := fun m => result.isOk = true → Current m.shared.authority.store.durable) ?_
    (fun m hm hok => hm result rfl hok) fun _ _ _ h => h
  refine Does.bind ((quiet_awaitCleanup none).keeps (hs result.isOk)) (fun _ => ?_)
    fun e m _ _ hok => by simp [Except.isOk, Except.toBool] at hok
  exact Does.raise fun m hm => hm

/-- INTERNAL: `status` keeps the invariant. -/
theorem fine_status : Fine E ownerUid Serial.status := by
  refine Fine.withLock ((Fine.attempt careful_admission.fine).bind fun admission =>
    quiet_expireRequests.fine.bind fun _ => ?_)
  split
  · exact (Quiet.pure _).fine
  · exact (Quiet.pure _).fine
  · exact (Quiet.throw _).fine

/-- INTERNAL: the steps of an operation keep the invariant. -/
theorem fine_step (s : Step) : Fine E ownerUid (Serial.step s) := by
  cases s with
  | admission => exact careful_admission.fine
  | revoke => exact fine_revoke
  | expireRequests => exact quiet_expireRequests.fine
  | provider op =>
    simp only [Serial.step]
    split_ifs with hown
    · refine (Quiet.bind (Quiet.act ?_) fun _ => Quiet.pure _).fine
      cases op <;> first | rfl | simp [ownStep] at hown
    · exact (Quiet.pure _).fine
  | backend call =>
    cases call with
    | clear => exact (Quiet.pure _).fine
    | _ => exact (Quiet.bind (Quiet.act rfl) fun _ => Quiet.pure _).fine
  | requestDeadline id deadline => exact (Quiet.act rfl).fine
  | closeAdmission => exact quiet_closeAdmission.fine

theorem fine_steps (rest : List Step) : Fine E ownerUid (steps rest) := by
  induction rest with
  | nil => exact (Quiet.pure _).fine
  | cons s rest ih => exact (Fine.attempt (fine_step s)).bind fun _ => ih

/-! ## Opening a session -/

/-- No session is open, and both cleanups succeeded. -/
def Shut (started : ℕ) (m : Memory) : Prop :=
  (view m).deadline = none ∧ (view m).cleanupFailed = false ∧ started ≤ m.shared.clock

theorem stable_shut (started : ℕ) : Stable (Shut started) := by
  intro m m₁ hcalm hm
  unfold Shut
  rw [hcalm.view]
  exact ⟨hm.1, hm.2.1, Nat.le_trans hm.2.2 hcalm.clock⟩

/-- A session may be opened for the lifetime that was granted. -/
def Granted (started lifetime : ℕ) (m : Memory) : Prop :=
  (view m).deadline = none ∧ (view m).cleanupFailed = false ∧
    ∃ begun, (view m).history.granted = some (begun, lifetime) ∧ started ≤ begun

theorem stable_granted (started lifetime : ℕ) : Stable (Granted started lifetime) := by
  intro m m₁ hcalm hm
  unfold Granted
  rw [hcalm.view]
  exact hm

/-- INTERNAL: a revocation that succeeds leaves a shut session. -/
theorem does_revoke_shut : Does E ownerUid (fun _ => True) revoke fun result m =>
    result.isOk = true → Shut 0 m := by
  intro m hm _
  refine (does_revoke m m hm (Calm.refl m)).mono fun result m₁ _ hended hok => ?_
  rcases hended with ⟨-, hfailed, -⟩ | ⟨cleared, locked, hrevoked, hresult⟩
  · rw [hfailed] at hok
    simp at hok
  · rw [hresult] at hok
    rw [hok] at hrevoked
    exact ⟨congrArg (·.deadline) hrevoked.view, congrArg (·.cleanupFailed) hrevoked.view, Nat.zero_le _⟩

/-- INTERNAL: the time is read. -/
theorem does_now_shut {ε : Type} : Does E ownerUid (Shut 0) (act .now : App ε ℕ) fun result m =>
    ∃ now, result = .ok now ∧ Shut now m := by
  refine Does.act fun moment answer m m₁ hperform hm hshut => ?_
  obtain ⟨hm₁, hcalm⟩ := perform_calm rfl hperform hm
  obtain ⟨hdeadline, hfailed, -⟩ := stable_shut 0 m m₁ hcalm hshut
  refine ⟨hm₁, answer, rfl, hdeadline, hfailed, ?_⟩
  obtain ⟨shared, hact, rfl⟩ := perform_eq hperform
  obtain ⟨hanswer, hshared⟩ := Prod.mk.inj (Option.some.inj hact)
  rw [← hanswer, ← hshared]
  exact Nat.le_refl _

/-- INTERNAL: the backend unlocks. -/
theorem does_unlock {ε : Type} (started : ℕ) :
    Does E ownerUid (Shut started) (act .unlock : App ε (Except SessionError ℕ)) fun result m =>
      ∃ answer, result = .ok answer ∧ ∀ lifetime, answer = .ok lifetime → Granted started lifetime m := by
  refine Does.act fun moment answer m m₁ hperform hm hshut => ?_
  obtain ⟨hphase, hclock, hepoch, hcurrent⟩ := perform_later hperform hm.phase
  obtain ⟨shared, hact, rfl⟩ := perform_eq hperform
  obtain ⟨hsame, -⟩ := performAct_still rfl hact
  obtain ⟨hauthority, hlater⟩ := before_spec .unlock moment m
  have hsession := hm.session
  have hnone : m.shared.authority.deadline = none := hshut.1
  cases answer with
  | error e =>
    refine ⟨⟨hphase, ?_⟩, .error e, rfl, fun lifetime h => by simp at h⟩
    simpa only [view, hsame, hauthority, note] using hsession
  | ok lifetime =>
    refine ⟨⟨hphase, ?_⟩, .ok lifetime, rfl, fun lifetime' h => ?_⟩
    · simp only [view, hsame, hauthority, note]
      exact { granted := fun d hd => absurd (hnone.symm.trans hd) (by simp)
              closed := hsession.closed
              cleaned := hsession.cleaned
              counted := hsession.counted
              decided := hsession.decided
              prepared := hsession.prepared }
    · obtain rfl := Except.ok.inj h
      simp only [Granted, view, hsame, hauthority, note]
      exact ⟨hnone, hshut.2.1, _, rfl, Nat.le_trans hshut.2.2 hlater⟩

/-- INTERNAL: a session is opened. -/
theorem does_unlocked {ε : Type} (started lifetime deadline sessionEpoch : ℕ)
    (hdeadline : deadline = started + min lifetime MAX_SESSION) :
    Does E ownerUid (Granted started lifetime) (act (.update (.unlocked deadline sessionEpoch)) : App ε Unit)
      fun _ _ => True := by
  refine Does.act fun moment answer m m₁ hperform hm hgranted => ⟨?_, trivial⟩
  obtain ⟨hphase, -⟩ := perform_later hperform hm.phase
  obtain ⟨hauthority, -, hhistory, hdeciding⟩ := perform_update hperform
  obtain ⟨-, hfailed, begun, hbegun, hle⟩ := hgranted
  have hsession := hm.session
  refine ⟨hphase, ?_⟩
  simp only [view, hauthority, AuthorityUpdate.apply, hhistory (by simp), hdeciding]
  exact { granted := fun d hd => ⟨begun, lifetime, hbegun, by rw [← Option.some.inj hd]; omega⟩
          closed := fun h => absurd (hfailed.symm.trans h) (by simp)
          cleaned := hsession.cleaned
          counted := hsession.counted
          decided := hsession.decided
          prepared := hsession.prepared }

/-- INTERNAL: the rest of `authenticate` opens a session for no longer than was granted. -/
theorem does_openSession (started sessionEpoch lifetime : ℕ) :
    Does E ownerUid (Granted started lifetime) (openSession started sessionEpoch lifetime)
      fun _ _ => True := by
  have hrevoke : ∀ e, Fine E ownerUid (do revoke; throw e : App SessionError Unit) :=
    fun e => fine_revoke.bind fun _ => (Quiet.throw e).fine
  unfold openSession
  split
  · exact (hrevoke _).imp (fun _ _ => trivial) fun _ _ _ h => h
  · rename_i deadline hdeadline
    have hvalue : deadline = started + min lifetime MAX_SESSION := by
      unfold durationAdd at hdeadline
      split_ifs at hdeadline
      exact (Option.some.inj hdeadline).symm
    refine Does.bind (Does.quiet rfl (stable_granted started lifetime)) (fun closing => ?_)
      fun _ _ _ _ => trivial
    refine Does.imp ?_ (fun m hm => hm.2) fun _ _ _ h => h
    have hlate : ∀ late : Bool, Does E ownerUid (Granted started lifetime)
        (if late then do revoke; throw SessionError.locked
          else act (.update (.unlocked deadline sessionEpoch))) fun _ _ => True := by
      intro late
      split_ifs
      · exact (hrevoke _).imp (fun _ _ => trivial) fun _ _ _ h => h
      · exact does_unlocked started lifetime deadline sessionEpoch hvalue
    split_ifs
    · exact hlate true
    · exact Does.bind ((Quiet.act rfl).keeps (stable_granted started lifetime))
        (fun now => hlate (decide (deadline ≤ now))) fun _ _ _ _ => trivial

/-- INTERNAL: **`authenticate` keeps the invariant.** -/
theorem fine_authenticate : Fine E ownerUid authenticate := by
  have hrevoke : ∀ e, Fine E ownerUid (do revoke; throw e : App SessionError Unit) :=
    fun e => fine_revoke.bind fun _ => (Quiet.throw e).fine
  refine Fine.withLock ((Quiet.act rfl).fine.bind fun closing => ?_)
  split_ifs
  · exact (Quiet.throw _).fine
  refine (Quiet.act rfl).fine.bind fun authority => ?_
  split_ifs
  · exact (Quiet.throw _).fine
  refine Does.bind does_revoke_shut (fun _ => ?_) fun _ _ _ _ => trivial
  refine Does.imp ?_ (fun m hm => hm rfl) fun _ _ _ h => h
  refine Does.bind does_now_shut (fun started => ?_) fun _ _ _ _ => trivial
  simp only [Except.ok.injEq, exists_eq_left']
  refine Does.bind (Does.quiet rfl (stable_shut started)) (fun sessionEpoch => ?_) fun _ _ _ _ => trivial
  refine Does.imp ?_ (fun m hm => hm.2) fun _ _ _ h => h
  refine Does.bind (Does.quiet rfl (stable_shut started)) (fun probe => ?_) fun _ _ _ _ => trivial
  refine Does.imp ?_ (fun m hm => hm.2) fun _ _ _ h => h
  have hfailed : ∀ e, Does E ownerUid (Shut started) (do revoke; throw e : App SessionError Unit)
      fun _ _ => True := fun e => (hrevoke e).imp (fun _ _ => trivial) fun _ _ _ h => h
  cases probe with
  | error e => exact hfailed e
  | ok u =>
    refine Does.bind (does_unlock started) (fun answer => ?_) fun _ _ _ _ => trivial
    simp only [Except.ok.injEq, exists_eq_left']
    cases answer with
    | error e => exact (hrevoke e).imp (fun _ _ => trivial) fun _ _ _ h => h
    | ok lifetime =>
      simp only
      split_ifs
      · exact (does_openSession started sessionEpoch lifetime).imp (fun m hm => hm lifetime rfl)
          fun _ _ _ h => h
      · exact (hrevoke _).imp (fun _ _ => trivial) fun _ _ _ h => h

end Revocation

end VaultAccess.Analysis.Serial
