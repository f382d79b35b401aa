import VaultAccess.Analysis.Commits

/-!
# Admission, and the session over whole runs

An operation that is admitted was admitted in time, after a failed cleanup nobody
authenticates, and with the invariant of every run: when a session is open, what a
revocation raises, and which decisions are written.
-/

set_option autoImplicit false

namespace VaultAccess.Analysis.Serial

open VaultAccess.Library VaultAccess.Model VaultAccess.Model.Application VaultAccess.Model.Serial

/-! ## Admission -/

section Admission

variable {E : Externals} {ownerUid : UInt32} {ε α β : Type}

/-- The program does not end with the value, wherever it runs. -/
def Never (E : Externals) (ownerUid : UInt32) (value : β) (p : Prog Act Ans β) : Prop :=
  ∀ m, Prog.Keeps (perform E ownerUid) (fun _ => True) p (fun result _ => result ≠ value) m

theorem Never.elim {value : β} {p : Prog Act Ans β} (h : Never E ownerUid value p) {moments : List Moment}
    {m m' : Memory} (hrun : p.runFor (perform E ownerUid) moments m = (some value, m')) : False := by
  have hend := ((h m).runFor moments).2 value
  rw [hrun] at hend
  exact hend rfl rfl

theorem Never.bind {value : β} {p : Prog Act Ans α} {f : α → Prog Act Ans β}
    (h : ∀ a, Never E ownerUid value (f a)) : Never E ownerUid value (p >>= f) :=
  fun m => Prog.Keeps.bind ((Prog.Keeps.top p m).mono fun a m₁ _ _ => h a m₁)

/-- INTERNAL: two programs and what follows. -/
theorem run_bind_bind (x : App ε α) {γ : Type} (f : α → App ε γ) (k : Except ε γ → Prog Act Ans β) :
    ((x >>= f).run >>= k) = x.run >>= fun result => match result with
      | .ok value => (f value).run >>= k
      | .error e => k (.error e) := by
  rw [ExceptT.run_bind, bind_assoc]
  congr 1
  funext result
  cases result <;> rfl

/-- INTERNAL: a program whose failure is a value, and what follows. -/
theorem run_attempt_bind (x : App ε α) {δ γ : Type} (f : Except ε α → App δ γ)
    (k : Except δ γ → Prog Act Ans β) :
    ((attempt x >>= f).run >>= k) = x.run >>= fun result => (f result).run >>= k := by
  rw [run_bind_bind]
  show ((x.run >>= fun result => Prog.done (Except.ok (ε := δ) result)) >>= _) = _
  rw [Prog.bind_bind]
  rfl

/-- INTERNAL: **what comes after an admission was admitted in time.** -/
theorem admitted_in_time {k : Except SessionError Unit → Prog Act Ans β} {value : β} {moments : List Moment}
    {m m' : Memory} (hk : ∀ e, Never E ownerUid value (k (.error e)))
    (hrun : (admission.run >>= k).runFor (perform E ownerUid) moments m = (some value, m')) :
    ∃ a b c rest, moments = a :: b :: c :: rest ∧ (m.shared.closing || a.closes) = false ∧
      m.shared.authority.cleanupFailed = false ∧ ∃ deadline, m.shared.authority.deadline = some deadline ∧
        m.shared.clock + a.elapsed + b.elapsed + c.elapsed < deadline := by
  have hrevoked : Never E ownerUid value
      ((do revoke; throw .locked : App SessionError Unit).run >>= k) := by
    rw [run_bind_bind]
    refine Never.bind fun result => ?_
    cases result <;> exact hk _
  obtain ⟨a, rest, closing, m₁, rfl, hclosing, hrun⟩ := Prog.runFor_act hrun
  obtain ⟨hanswer, rfl⟩ := Prod.mk.inj (Option.some.inj hclosing)
  cases closing with
  | true => exact absurd hrun hrevoked.elim
  | false =>
    obtain ⟨b, rest, authority, m₂, rfl, hauthority, hrun⟩ := Prog.runFor_act hrun
    obtain ⟨rfl, rfl⟩ := Prod.mk.inj (Option.some.inj hauthority)
    have hsame : (pass b.elapsed b.closes (pass a.elapsed a.closes m.shared)).authority.deadline =
        m.shared.authority.deadline := rfl
    change Prog.runFor _ ((okOr SessionError.locked (pass b.elapsed b.closes
      (pass a.elapsed a.closes m.shared)).authority.deadline >>= _ : App SessionError Unit).run >>= k) _ _ = _
      at hrun
    rw [hsame] at hrun
    cases hdeadline : m.shared.authority.deadline with
    | none =>
      rw [hdeadline] at hrun
      exact absurd hrun (hk _).elim
    | some deadline =>
      rw [hdeadline] at hrun
      obtain ⟨c, rest, now, m₃, rfl, hnow, hrun⟩ := Prog.runFor_act hrun
      obtain ⟨rfl, rfl⟩ := Prod.mk.inj (Option.some.inj hnow)
      change Prog.runFor _ ((if (Decidable.decide (m.shared.clock + a.elapsed + b.elapsed + c.elapsed < deadline) &&
        !m.shared.authority.cleanupFailed) = true then pure () else do revoke; throw SessionError.locked :
          App SessionError Unit).run >>= k) _ _ = _ at hrun
      split_ifs at hrun with hopen
      · rw [Bool.and_eq_true, decide_eq_true_eq, Bool.not_eq_true'] at hopen
        exact ⟨a, b, c, rest, rfl, hanswer, hopen.2, deadline, rfl, hopen.1⟩
      · exact absurd hrun hrevoked.elim

/-- INTERNAL: a mutex is acquired. -/
theorem performAct_acquire {l : Lock} {entry : Option ℕ} {input : Input} {taken : Bool} {m m₁ : Shared}
    (h : performAct E ownerUid 0 (.acquire l entry) input m = some (taken, m₁)) :
    m₁.authority = m.authority ∧ m₁.closing = m.closing ∧ m₁.clock = m.clock := by
  simp only [performAct] at h
  split_ifs at h
  · rw [← (Prod.mk.inj (Option.some.inj h)).2]
    exact ⟨rfl, rfl, rfl⟩
  · rw [← (Prod.mk.inj (Option.some.inj h)).2]
    exact ⟨rfl, rfl, rfl⟩

/-- INTERNAL: an operation that was not admitted does not answer that it is done. -/
theorem never_done (e : SessionError) : Never E ownerUid Answer.done
    ((do act (.release .gate); raise (.error e) : App SessionError Unit).run >>= fun result =>
      match result with
      | .ok _ => pure Answer.done
      | .error _ => pure Answer.refused) :=
  fun m => ⟨trivial, fun _ _ m₁ _ => ⟨trivial, by simp⟩⟩

/-- INTERNAL: **an operation that is admitted is admitted in time.** -/
theorem operation_in_time {rest : List Step} {moments : List Moment} {mem mem' : Memory}
    (hrun : runCall E ownerUid (.operation rest) moments mem = (some .done, mem')) :
    ∃ a b c d later, moments = a :: b :: c :: d :: later ∧
      (mem.shared.closing || a.closes || b.closes) = false ∧ mem.shared.authority.cleanupFailed = false ∧
      ∃ deadline, mem.shared.authority.deadline = some deadline ∧
        mem.shared.clock + a.elapsed + b.elapsed + c.elapsed + d.elapsed < deadline := by
  obtain ⟨a, later, taken, m₁, rfl, hacquire, hrun⟩ := Prog.runFor_act hrun
  obtain ⟨hauthority, hclosing, hclock⟩ : m₁.shared.authority = mem.shared.authority ∧
      m₁.shared.closing = (mem.shared.closing || a.closes) ∧ m₁.shared.clock = mem.shared.clock + a.elapsed := by
    obtain ⟨shared, hact, rfl⟩ := perform_eq hacquire
    exact performAct_acquire hact
  cases taken with
  | false =>
    change Prog.runFor _ (Prog.done Answer.refused) later m₁ = _ at hrun
    simp [Prog.runFor] at hrun
  | true =>
    change Prog.runFor _ ((attempt (do admission; steps rest) >>= fun result => do
      act (.release .gate); raise result : App SessionError Unit).run >>= _) later m₁ = _ at hrun
    rw [run_attempt_bind, run_bind_bind] at hrun
    obtain ⟨b, c, d, later, rfl, hopen, hfailed, deadline, hdeadline, htime⟩ :=
      admitted_in_time never_done hrun
    rw [hauthority] at hfailed hdeadline
    rw [hclosing] at hopen
    rw [hclock] at htime
    exact ⟨a, b, c, d, later, rfl, hopen, hfailed, deadline, hdeadline, htime⟩

/-- INTERNAL: after a failed cleanup nobody authenticates. -/
theorem does_authenticate_refused (m₀ : Memory) (hfailed : (view m₀).cleanupFailed = true) :
    Does E ownerUid (Calm m₀) authenticate fun result m => result.isOk = false ∧ Calm m₀ m := by
  have hs := stable_calm m₀
  refine Does.withLock hs (fun _ m m₁ hcalm hm => ⟨hm.1, hm.2.trans hcalm⟩) ?_ fun m hm => ⟨rfl, hm⟩
  refine Does.bind (Does.quiet rfl hs) (fun closing => ?_) fun e m _ hm => ⟨rfl, hm.2⟩
  refine Does.imp ?_ (fun m hm => hm.2) fun _ _ _ h => h
  cases closing with
  | true => exact fun m hm hcalm => ⟨hm, rfl, hcalm⟩
  | false =>
    refine Does.bind (does_readAuthority m₀) (fun authority => ?_) fun e m _ hm => by simp at hm
    simp only [Except.ok.injEq, exists_eq_left']
    refine Does.extract (fun m hm => hm.2.1) fun hsame => ?_
    rw [hsame, hfailed]
    exact fun m hm hread => ⟨hm, rfl, hread.2.2.2⟩

/-- INTERNAL: a call of `authenticate` after a failed cleanup. -/
theorem authenticate_refused {moments : List Moment} {mem mem' : Memory} {result : Answer} (hm : Sound mem)
    (hfailed : mem.shared.authority.cleanupFailed = true)
    (hrun : runCall E ownerUid .authenticate moments mem = (some result, mem')) :
    result = .refused ∧ mem'.history = mem.history := by
  have hsound := hm.deciding none
  have hkeeps : Prog.Keeps (perform E ownerUid) Sound (answer authenticate)
      (fun a m => a = .refused ∧ m.history = mem.history) { mem with deciding := none } := by
    refine Prog.Keeps.bind (((does_authenticate_refused { mem with deciding := none } hfailed) _ hsound
      (Calm.refl _)).mono fun r m hm hr => ?_)
    cases r with
    | ok value => simp [Except.isOk, Except.toBool] at hr
    | error e => exact ⟨hm, rfl, congrArg (·.history) hr.2.view⟩
  have hend := (hkeeps.runFor moments).2 result
  unfold runCall at hrun
  simp only [Serial.code, Call.deciding] at hrun
  rw [hrun] at hend
  exact hend rfl

end Admission

/-! ## Results -/

/-- **In every run of calls, stopped anywhere**: a session is open only until the lifetime that its
unlock was granted, and at most fifteen minutes, have passed since the unlock began; an operation
is admitted only before that time and before admission is closed; and while the cleanups of the
last revocation have not both succeeded, the session is closed and nobody authenticates. -/
theorem session_opens_and_admits_in_time (E : Externals) (ownerUid : UInt32) {mem mem' : Memory}
    {call : Serial.Call} {moments : List Moment} {result : Option Answer} (h : Serial.Reached E ownerUid mem)
    (hrun : runCall E ownerUid call moments mem = (result, mem')) :
    (∀ deadline, mem'.shared.authority.deadline = some deadline → ∃ started lifetime,
      mem'.history.granted = some (started, lifetime) ∧ deadline ≤ started + min lifetime MAX_SESSION) ∧
    (∀ rest, call = .operation rest → result = some .done → ∃ a b c d later,
      moments = a :: b :: c :: d :: later ∧ (mem.shared.closing || a.closes || b.closes) = false ∧
      mem.shared.authority.cleanupFailed = false ∧ ∃ deadline, mem.shared.authority.deadline = some deadline ∧
        mem.shared.clock + a.elapsed + b.elapsed + c.elapsed + d.elapsed < deadline) ∧
    ((mem'.history.cleared && mem'.history.locked) = false →
      mem'.shared.authority.deadline = none ∧ mem'.shared.authority.cleanupFailed = true) ∧
    (call = .authenticate → (mem.history.cleared && mem.history.locked) = false →
      ∀ answer, result = some answer → answer = .refused ∧ mem'.history = mem.history) := by
  have hsound := reached_sound h
  obtain ⟨hsound', -⟩ := runCall_sound call moments hsound hrun
  have hfailed : ∀ {m : Memory}, Sound m → (m.history.cleared && m.history.locked) = false →
      m.shared.authority.cleanupFailed = true := by
    intro m hm hclean
    by_contra hno
    obtain ⟨hcleared, hlocked⟩ := hm.session.cleaned (Bool.eq_false_of_not_eq_true hno)
    rw [show m.history.cleared = true from hcleared, show m.history.locked = true from hlocked] at hclean
    simp at hclean
  refine ⟨hsound'.session.granted, ?_, fun hclean => ?_, ?_⟩
  · rintro rest rfl rfl
    exact operation_in_time hrun
  · exact ⟨hsound'.session.closed (hfailed hsound' hclean), hfailed hsound' hclean⟩
  · rintro rfl hclean answer rfl
    exact authenticate_refused hsound (hfailed hsound hclean) hrun

/-! ### One session -/

namespace Sample

/-- Nothing is registered here, so nothing is hashed. -/
def externals : Externals := ⟨fun _ => Vector.replicate 32 0, fun _ => true, fun _ _ _ => true⟩

def env : Env := ⟨⟨fun _ => none⟩, fun _ => some 10, none⟩

/-- A moment in which everything succeeds, with the way a write ends. -/
def moment (outcome : WriteOutcome) : Moment where
  elapsed := 1
  closes := false
  writing := 0
  closesWriting := false
  input := ⟨env, outcome, false, false, false, .ok (), .ok true, .ok 600, true, ([], .failed), .ok (), .ok ""⟩

/-- A process after its start, after its first lock, and after an authentication. -/
def started : Memory := Serial.fresh (Model.step externals 1000 .initial (.restart env .committed)) 0

def locked : Memory := (runCall externals 1000 .lock (List.replicate 16 (moment .committed)) started).2

def opened : Memory :=
  (runCall externals 1000 .authenticate (List.replicate 16 (moment .committed)) locked).2

/-- INTERNAL: the session is reached. -/
theorem reached_opened : Serial.Reached externals 1000 opened := by
  have hlock : runCall externals 1000 .lock (List.replicate 16 (moment .committed)) started =
      (some .done, locked) := Prod.ext rfl rfl
  have hauthenticate : runCall externals 1000 .authenticate (List.replicate 16 (moment .committed)) locked =
      (some .done, opened) := Prod.ext rfl rfl
  exact (Reached.start env .committed 0).call .lock _ hlock |>.call .authenticate _ hauthenticate

end Sample

/-- An operation is admitted right after a session was opened for 600 nanoseconds. -/
theorem session_opens_and_admits_in_time_once :
    (runCall Sample.externals 1000 (.operation []) (List.replicate 5 (Sample.moment .committed))
      Sample.opened).1 = some .done ∧
    Sample.opened.shared.authority.deadline = some 624 ∧
    ∃ deadline, Sample.opened.shared.authority.deadline = some deadline ∧
      Sample.opened.shared.clock + 4 < deadline := by
  refine ⟨rfl, rfl, ?_⟩
  have hrun : runCall Sample.externals 1000 (.operation []) (List.replicate 5 (Sample.moment .committed))
      Sample.opened = (some .done, _) := rfl
  obtain ⟨a, b, c, d, later, hmoments, -, -, deadline, hdeadline, htime⟩ :=
    (session_opens_and_admits_in_time Sample.externals 1000 Sample.reached_opened hrun).2.1 [] rfl rfl
  simp only [List.replicate, List.cons.injEq] at hmoments
  obtain ⟨rfl, rfl, rfl, rfl, -⟩ := hmoments
  exact ⟨deadline, hdeadline, htime⟩

/-! ### Revocations and decisions -/

/-- INTERNAL: a start that succeeds leaves a later epoch and nothing of an earlier one. -/
theorem restart_current (E : Externals) (ownerUid : UInt32) (store : Store) (env : Env) (outcome : WriteOutcome)
    (h : (Model.step E ownerUid store (.restart env outcome)).poisoned = false) :
    store.durable.lifecycleEpoch < (Model.step E ownerUid store (.restart env outcome)).durable.lifecycleEpoch ∧
      Current (Model.step E ownerUid store (.restart env outcome)).durable := by
  unfold Model.step at h ⊢
  cases hhanded : Event.handsOver E ownerUid store (.restart env outcome) with
  | none => simp [hhanded, Event.closed] at h
  | some s =>
    simp only [hhanded] at h ⊢
    cases hwrite : ((Event.restart env outcome).opened store).writeState E ownerUid
        (Event.restart env outcome).env.disk s (Event.restart env outcome).outcome with
    | mk store' answer =>
      rw [hwrite] at h
      cases answer with
      | error e => simp [Event.closed] at h
      | ok u =>
        have hok : (((Event.restart env outcome).opened store).writeState E ownerUid
            (Event.restart env outcome).env.disk s (Event.restart env outcome).outcome).2.isOk = true := by
          rw [hwrite]
          rfl
        have hstore := (Prod.mk.inj (hwrite.symm.trans (writeState_of_isOk _ _ s _ hok))).1
        simp only
        rw [hstore]
        refine ⟨?_, current_of_valid (valid_of_writeState _ _ s _ hok)⟩
        unfold Event.handsOver at hhanded
        rw [Option.bind_eq_some_iff] at hhanded
        obtain ⟨s₀, hreads, hs⟩ := hhanded
        obtain ⟨handed, hrecover, hstate⟩ := handedState_eq_some _ _ hs
        obtain ⟨s', hs', hnext⟩ := invalidate_epoch hrecover
        obtain rfl := Option.some.inj (hstate.symm.trans hs')
        have hepoch : s₀.lifecycleEpoch = store.durable.lifecycleEpoch := by rw [(reads_eq store _ s₀ hreads).1]
        simp only
        omega

/-- **In every run of calls and restarts, stopped anywhere**: a revocation raises the generation by
one, and the stored epoch if the store was locked; after a lock or a start that succeeds no
unclaimed request of an earlier epoch is pending or approved; and a decision is written only with
an approval prepared since the last revocation, and before the deadlines of the companion, the
request and the session, before the rename and, if the write succeeds, after it too. -/
theorem revocations_and_decisions (E : Externals) (ownerUid : UInt32) {mem mem' : Memory}
    {call : Serial.Call} {moments : List Moment} {result : Option Answer} (h : Serial.Reached E ownerUid mem)
    (hrun : runCall E ownerUid call moments mem = (result, mem')) :
    (∀ moments' answer m, revoke.run.runFor (perform E ownerUid) moments' mem' = (some answer, m) →
      mem'.shared.authority.generation + 1 < u64Size →
      m.shared.authority.generation = mem'.shared.authority.generation + 1 ∧ epoch mem' ≤ epoch m ∧
        (m.history.locked = true → epoch mem' < epoch m)) ∧
    (call = .lock → result = some .done → Current mem'.shared.authority.store.durable) ∧
    (∀ env outcome, (Model.step E ownerUid mem'.shared.authority.store (.restart env outcome)).poisoned = false →
      Current (Model.step E ownerUid mem'.shared.authority.store (.restart env outcome)).durable) ∧
    ∀ d ∈ mem'.history.decided, ∃ p, d.prepared = some p ∧ p.binding = d.binding ∧
      (∀ n, (p, n) ∈ mem'.history.prepared → d.revokes = n) ∧ Before d p d.checked ∧
      (d.accepted = true → Before d p d.rechecked) := by
  have hsound := reached_sound h
  obtain ⟨hsound', -⟩ := runCall_sound call moments hsound hrun
  refine ⟨fun moments' answer m hrevoke hbound => ?_, ?_, fun env outcome hserves => ?_, fun d hd => ?_⟩
  · have hend := ((@does_revoke E ownerUid mem' mem' hsound' (Calm.refl mem')).runFor moments').2 answer
    rw [hrevoke] at hend
    rcases hend rfl with ⟨hover, -, -⟩ | ⟨cleared, locked, hrevoked, -⟩
    · exact absurd hbound (Nat.not_lt.mpr hover)
    · refine ⟨congrArg (·.generation) hrevoked.view, hrevoked.epoch, fun hlocked => ?_⟩
      have hsame : m.history.locked = locked := congrArg (·.history.locked) hrevoked.view
      exact (hrevoked.locked (hsame.symm.trans hlocked)).1
  · rintro rfl rfl
    have hkeeps : Prog.Keeps (perform E ownerUid) Sound (answer Application.lock)
        (fun a m => a = .done → Current m.shared.authority.store.durable) { mem with deciding := none } := by
      refine Prog.Keeps.bind ((does_lock_current _ (hsound.deciding none) trivial).mono fun r m hm hr => ?_)
      cases r with
      | ok value => exact ⟨hm, fun _ => hr rfl⟩
      | error e => exact ⟨hm, fun hdone => by simp at hdone⟩
    have hend := (hkeeps.runFor moments).2 .done
    unfold runCall at hrun
    simp only [Serial.code, Call.deciding] at hrun
    rw [hrun] at hend
    exact hend rfl rfl
  · exact (restart_current E ownerUid _ env outcome hserves).2
  · obtain ⟨p, hp, hbinding, hgeneration, hbefore, hafter⟩ := hsound'.session.decided d hd
    refine ⟨p, hp, hbinding, fun n hn => ?_, hbefore, hafter⟩
    rw [← hgeneration]
    exact hsound'.session.prepared p n hn

/-- A revocation whose lock could not be written raises the generation but not the stored epoch. -/
theorem epoch_stays_without_write :
    Serial.Reached Sample.externals 1000 Sample.opened ∧
    (revoke.run.runFor (perform Sample.externals 1000)
      (List.replicate 4 (Sample.moment (.failedBefore .persistenceFailure))) Sample.opened).1 =
        some (.error .cleanupFailed) ∧
    (revoke.run.runFor (perform Sample.externals 1000)
      (List.replicate 4 (Sample.moment (.failedBefore .persistenceFailure))) Sample.opened).2.history.revokes =
        Sample.opened.history.revokes + 1 ∧
    ¬ epoch Sample.opened < epoch (revoke.run.runFor (perform Sample.externals 1000)
      (List.replicate 4 (Sample.moment (.failedBefore .persistenceFailure))) Sample.opened).2 := by
  have hsame : epoch (revoke.run.runFor (perform Sample.externals 1000)
      (List.replicate 4 (Sample.moment (.failedBefore .persistenceFailure))) Sample.opened).2 =
        epoch Sample.opened := rfl
  exact ⟨Sample.reached_opened, rfl, rfl, by rw [hsame]; exact Nat.lt_irrefl _⟩

/-- The open session after a revocation. -/
def Sample.revoked : Memory :=
  (revoke.run.runFor (perform Sample.externals 1000) (List.replicate 5 (Sample.moment .committed))
    Sample.opened).2

/-- A revocation in an open session. -/
theorem revocations_and_decisions_once :
    revoke.run.runFor (perform Sample.externals 1000) (List.replicate 5 (Sample.moment .committed))
      Sample.opened = (some (.ok ()), Sample.revoked) ∧
    Sample.revoked.shared.authority.generation = Sample.opened.shared.authority.generation + 1 ∧
    epoch Sample.opened < epoch Sample.revoked := by
  have hrun : revoke.run.runFor (perform Sample.externals 1000) (List.replicate 5 (Sample.moment .committed))
      Sample.opened = (some (.ok ()), Sample.revoked) := Prod.ext rfl rfl
  have hcall : runCall Sample.externals 1000 .lock [] Sample.opened = (none, Sample.opened) := rfl
  obtain ⟨hgeneration, -, hepoch⟩ := (revocations_and_decisions Sample.externals 1000 Sample.reached_opened
    hcall).1 _ _ _ hrun (show Sample.opened.shared.authority.generation + 1 < u64Size by decide)
  exact ⟨hrun, hgeneration, hepoch rfl⟩

end VaultAccess.Analysis.Serial
