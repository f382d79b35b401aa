import VaultAccess.Model.Serial
import VaultAccess.Analysis.Calls

/-!
# The session over whole runs

Calls run one after another, each stopped anywhere or run to its end. The view of a memory is
what the session owes its safety to; most actions leave it alone. A program does what it
should when it keeps the invariant at every action and ends as it says.
-/

set_option autoImplicit false

namespace VaultAccess.Analysis.Serial

open VaultAccess.Library VaultAccess.Model VaultAccess.Model.Application VaultAccess.Model.Serial

/-! ## The invariant -/

/-- What the session is decided by. -/
structure View where
  deadline : Option ℕ
  cleanupFailed : Bool
  generation : ℕ
  history : History
  deciding : Option PreparedApproval

/-- The view of a memory. -/
def view (m : Memory) : View :=
  ⟨m.shared.authority.deadline, m.shared.authority.cleanupFailed, m.shared.authority.generation,
    m.history, m.deciding⟩

/-- A time before all deadlines of a decision. -/
def Before (d : Decision) (p : PreparedApproval) (time : ℕ) : Prop :=
  (∀ deadline, p.companionDeadline = some deadline → time < deadline) ∧
    (∃ deadline, d.requestDeadline = some deadline ∧ time < deadline) ∧
    ∃ deadline, d.sessionDeadline = some deadline ∧ time < deadline

/-- A decision was made by an approval of the same generation, before all its deadlines. -/
def Timely (d : Decision) : Prop :=
  ∃ p, d.prepared = some p ∧ p.binding = d.binding ∧ p.generation = d.revokes ∧ Before d p d.checked ∧
    (d.accepted = true → Before d p d.rechecked)

/-- The invariant of a view. -/
structure Session (v : View) : Prop where
  granted : ∀ d, v.deadline = some d → ∃ started lifetime,
    v.history.granted = some (started, lifetime) ∧ d ≤ started + min lifetime MAX_SESSION
  closed : v.cleanupFailed = true → v.deadline = none
  cleaned : v.cleanupFailed = false → v.history.cleared = true ∧ v.history.locked = true
  counted : v.generation = v.history.revokes
  decided : ∀ d ∈ v.history.decided, Timely d
  prepared : ∀ p n, (p, n) ∈ v.history.prepared → p.generation = n

/-- The invariant of a memory. -/
structure Sound (m : Memory) : Prop where
  phase : InPhase m.shared.authority.store.durable
  session : Session (view m)

/-- The lifecycle epoch that is stored. -/
def epoch (m : Memory) : ℕ := m.shared.authority.store.durable.lifecycleEpoch

/-- No unclaimed request of an earlier epoch may still be decided or executed. -/
def Current (s : ProviderState) : Prop :=
  ∀ r ∈ s.requests, ∀ d, r.direct = some d →
    d.review.status = .pending ∨ d.review.status = .approved → d.executionClaimed = false →
    d.lifecycleEpoch = s.lifecycleEpoch

/-! ## Stored states -/

section Stored

variable {E : Externals} {ownerUid : UInt32}

/-- INTERNAL: **a state that passed the validator is current.** -/
theorem current_of_valid {s : ProviderState} {disk : Model.Disk}
    (h : s.validateForOwner E disk ownerUid = true) : Current s := by
  intro r hr d hd hstatus hclaimed
  simp only [ProviderState.validateForOwner, Bool.and_eq_true, List.all_eq_true] at h
  have hvalid := h.2 r hr
  simp only [RequestRecord.validate, hd, Bool.and_eq_true, consistentStatus, decide_eq_true_eq] at hvalid
  obtain ⟨⟨⟨-, hlifecycle⟩, -⟩, hepoch⟩ := hvalid
  rcases hstatus with hstatus | hstatus <;>
    simpa [RequestRecord.epochValid, hlifecycle, hstatus, DirectStatus.lifecycle,
      RequestLifecycleStatus.isUnexecuted, hclaimed] using hepoch

/-- INTERNAL: an invalidation hands over the next epoch. -/
theorem invalidate_epoch {env : Env} {s : ProviderState} {recovered : Bool} {handed : Handed Unit}
    (h : invalidate env s recovered = .ok handed) :
    ∃ s', handed.state = some s' ∧ s'.lifecycleEpoch = s.lifecycleEpoch + 1 := by
  simp only [invalidate, bind, Except.bind, pure, Except.pure] at h
  split at h
  · rename_i next hnext
    split at h
    · simp at h
    · rw [← Except.ok.inj h]
      refine ⟨_, rfl, ?_⟩
      unfold checkedAdd at hnext
      split_ifs at hnext
      exact (Option.some.inj hnext).symm
  · simp at h

/-- INTERNAL: an event does not lower the epoch. -/
theorem epoch_step (store : Store) (event : Event) (hphase : InPhase store.durable) :
    store.durable.lifecycleEpoch ≤ (Model.step E ownerUid store event).durable.lifecycleEpoch := by
  rcases @step_durable E ownerUid store event with hsame | ⟨s', hs', -, hnext⟩
  · rw [hsame]
  · obtain ⟨s, -, hs, hstep⟩ := @handsOver_step E ownerUid False store event s' hphase
      (fun _ hl => hl.elim) hs'
    rw [hnext]
    have hepoch : s.lifecycleEpoch = store.durable.lifecycleEpoch := by rw [hs]
    rw [← hepoch]
    cases hstep <;> simp

/-- INTERNAL: an event stores nothing that is not current. -/
theorem current_step (store : Store) (event : Event) (h : Current store.durable) :
    Current (Model.step E ownerUid store event).durable := by
  rcases @step_durable E ownerUid store event with hsame | ⟨s', -, hvalid, hnext⟩
  · rw [hsame]
    exact h
  · rw [hnext]
    exact current_of_valid hvalid

end Stored

/-! ## Actions -/

/-- Actions that leave the view alone. -/
def quiet : Act → Bool
  | .update (.revoked _) | .update .cleaned | .update (.unlocked ..) | .unlock | .backend .clear
  | .provider .lock | .provider (.decideDirect ..) => false
  | _ => true

/-- What quiet actions do. -/
structure Calm (m m₁ : Memory) : Prop where
  view : view m₁ = view m
  clock : m.shared.clock ≤ m₁.shared.clock
  epoch : epoch m ≤ epoch m₁
  current : Current m.shared.authority.store.durable → Current m₁.shared.authority.store.durable

theorem Calm.refl (m : Memory) : Calm m m := ⟨rfl, Nat.le_refl _, Nat.le_refl _, fun h => h⟩

theorem Calm.trans {m m₁ m₂ : Memory} (h : Calm m m₁) (h' : Calm m₁ m₂) : Calm m m₂ :=
  ⟨h'.view.trans h.view, Nat.le_trans h.clock h'.clock, Nat.le_trans h.epoch h'.epoch,
    fun hm => h'.current (h.current hm)⟩

section Actions

variable {E : Externals} {ownerUid : UInt32}

/-- Actions that leave the authority alone. -/
def still : Act → Bool
  | .update _ | .provider _ => false
  | _ => true

/-- INTERNAL: what a still action leaves. -/
theorem performAct_still {a : Act} {input : Input} {answer : Ans a} {m m₁ : Shared}
    (ha : still a = true) (h : performAct E ownerUid 0 a input m = some (answer, m₁)) :
    m₁.authority = m.authority ∧ m₁.clock = m.clock := by
  cases a with
  | update u => simp [still] at ha
  | provider op => simp [still] at ha
  | stall => simp [performAct] at h
  | _ =>
    simp only [performAct] at h
    try split_ifs at h
    all_goals
      rw [← (Prod.mk.inj (Option.some.inj h)).2]
      exact ⟨rfl, rfl⟩

theorem performAct_update {u : AuthorityUpdate} {input : Input} {answer : Unit} {m m₁ : Shared}
    (h : performAct E ownerUid 0 (.update u) input m = some (answer, m₁)) :
    m₁.authority = u.apply m.authority ∧ m₁.clock = m.clock := by
  rw [← (Prod.mk.inj (Option.some.inj h)).2]
  exact ⟨rfl, rfl⟩

theorem apply_store (a : Authority) (u : AuthorityUpdate) : (u.apply a).store = a.store := by
  cases u <;> rfl

/-- INTERNAL: an operation changes the store and leaves the rest of the authority. -/
theorem performAct_provider {op : Op} {input : Input} {answer : Ans (.provider op)} {m m₁ : Shared}
    (h : performAct E ownerUid 0 (.provider op) input m = some (answer, m₁)) :
    m₁.authority = { m.authority with
        store := (m.authority.store.call E ownerUid op input.env input.outcome input.unreadable).1 } ∧
      m₁.clock = m.clock ∧
      answer = (m.authority.store.call E ownerUid op input.env input.outcome input.unreadable).2 := by
  obtain ⟨hanswer, hm⟩ := Prod.mk.inj (Option.some.inj h)
  rw [← hm]
  exact ⟨rfl, rfl, hanswer.symm⟩

/-- INTERNAL: before an action only the clock moves on. -/
theorem before_spec (a : Act) (moment : Moment) (m : Memory) :
    (before a moment m).1.authority = m.shared.authority ∧
      m.shared.clock ≤ (before a moment m).1.clock := by
  unfold before
  split
  · simp only [Serial.pass]
    exact ⟨trivial, by omega⟩
  · simp only [Serial.pass]
    exact ⟨trivial, by omega⟩

/-- INTERNAL: an action of the process. -/
theorem perform_eq {a : Act} {moment : Moment} {answer : Ans a} {m m₁ : Memory}
    (h : perform E ownerUid a moment m = some (answer, m₁)) :
    ∃ shared, performAct E ownerUid 0 a (before a moment m).2 (before a moment m).1 =
        some (answer, shared) ∧
      m₁ = { m with
        shared := shared
        history := note m.deciding (m.shared.clock + moment.elapsed) (before a moment m).1 shared
          m.history a answer } := by
  simp only [perform, Option.map_eq_some_iff] at h
  obtain ⟨⟨answer', shared⟩, hperform, heq⟩ := h
  obtain ⟨rfl, rfl⟩ := Prod.mk.inj heq
  exact ⟨shared, hperform, rfl⟩

theorem note_quiet {a : Act} (ha : quiet a = true) (deciding : Option PreparedApproval) (checked : ℕ)
    (m m₁ : Shared) (history : History) (answer : Ans a) :
    note deciding checked m m₁ history a answer = history := by
  unfold note
  split <;> simp_all [quiet]

/-- INTERNAL: a call leaves a later store. -/
theorem call_later (store : Store) (op : Op) (env : Env) (w : WriteOutcome) (unreadable : Bool)
    (hphase : InPhase store.durable) :
    store.durable.lifecycleEpoch ≤
        (store.call E ownerUid op env w unreadable).1.durable.lifecycleEpoch ∧
      (Current store.durable → Current (store.call E ownerUid op env w unreadable).1.durable) := by
  rw [call_store]
  split_ifs
  · exact ⟨Nat.le_refl _, fun h => h⟩
  · exact ⟨epoch_step store _ hphase, current_step store _⟩

/-- INTERNAL: every action keeps requests in phase, the clock and the epoch. -/
theorem perform_later {a : Act} {moment : Moment} {answer : Ans a} {m m₁ : Memory}
    (h : perform E ownerUid a moment m = some (answer, m₁))
    (hphase : InPhase m.shared.authority.store.durable) :
    InPhase m₁.shared.authority.store.durable ∧ m.shared.clock ≤ m₁.shared.clock ∧
      epoch m ≤ epoch m₁ ∧
      (Current m.shared.authority.store.durable → Current m₁.shared.authority.store.durable) := by
  obtain ⟨shared, hperform, rfl⟩ := perform_eq h
  obtain ⟨hauthority, hclock⟩ := before_spec a moment m
  by_cases ha : still a = true
  · obtain ⟨hsame, htime⟩ := performAct_still ha hperform
    simp only [epoch, hsame, hauthority, htime]
    exact ⟨hphase, hclock, Nat.le_refl _, fun h => h⟩
  · cases a with
    | update u =>
      obtain ⟨hsame, htime⟩ := performAct_update hperform
      simp only [epoch, hsame, apply_store, hauthority, htime]
      exact ⟨hphase, hclock, Nat.le_refl _, fun h => h⟩
    | provider op =>
      obtain ⟨hsame, htime, -⟩ := performAct_provider hperform
      simp only [epoch, hsame, hauthority, htime]
      obtain ⟨hepoch, hcurrent⟩ := @call_later E ownerUid m.shared.authority.store op
        (before (.provider op) moment m).2.env (before (.provider op) moment m).2.outcome
        (before (.provider op) moment m).2.unreadable hphase
      exact ⟨call_inPhase _ _ _ _ _ hphase, hclock, hepoch, hcurrent⟩
    | _ => exact absurd rfl ha

/-- INTERNAL: **quiet actions are calm.** -/
theorem perform_calm {a : Act} (ha : quiet a = true) {moment : Moment} {answer : Ans a} {m m₁ : Memory}
    (h : perform E ownerUid a moment m = some (answer, m₁)) (hm : Sound m) : Sound m₁ ∧ Calm m m₁ := by
  obtain ⟨hphase, hclock, hepoch, hcurrent⟩ := perform_later h hm.phase
  have hview : view m₁ = view m := by
    obtain ⟨shared, hperform, rfl⟩ := perform_eq h
    obtain ⟨hauthority, -⟩ := before_spec a moment m
    by_cases hstill : still a = true
    · obtain ⟨hsame, -⟩ := performAct_still hstill hperform
      simp only [view, note_quiet ha, hsame, hauthority]
    · cases a with
      | update u =>
        obtain ⟨hsame, -⟩ := performAct_update hperform
        simp only [view, note_quiet ha, hsame, hauthority]
        cases u <;> first | rfl | simp [quiet] at ha
      | provider op =>
        obtain ⟨hsame, -, -⟩ := performAct_provider hperform
        simp only [view, note_quiet ha, hsame, hauthority]
      | _ => exact absurd rfl hstill
  refine ⟨⟨hphase, ?_⟩, hview, hclock, hepoch, hcurrent⟩
  rw [hview]
  exact hm.session

end Actions

/-! ## Programs -/

section Programs

variable (E : Externals) (ownerUid : UInt32) {ε δ α β : Type}

/-- Started where `P` holds, the program keeps the invariant at every action, and ends where `Q`
holds of its result. -/
def Does (P : Memory → Prop) (x : App ε α) (Q : Except ε α → Memory → Prop) : Prop :=
  ∀ m, Sound m → P m → Prog.Keeps (perform E ownerUid) Sound x.run Q m

/-- A fact that quiet actions keep. -/
def Stable (P : Memory → Prop) : Prop := ∀ m m₁, Calm m m₁ → P m → P m₁

/-- All actions of the program are quiet. -/
def Quiet (x : App ε α) : Prop := Prog.Only (fun a => quiet a = true) x.run

/-- The program is calm if it succeeds. -/
def Careful (x : App ε α) : Prop :=
  ∀ m₀, Does E ownerUid (Calm m₀) x fun result m => result.isOk = true → Calm m₀ m

/-- The program keeps the invariant wherever it starts. -/
def Fine (x : App ε α) : Prop := Does E ownerUid (fun _ => True) x fun _ _ => True

variable {E ownerUid}
variable {P P' R : Memory → Prop}

theorem stable_calm (m₀ : Memory) : Stable (Calm m₀) := fun _ _ h hm => hm.trans h

theorem Does.imp {x : App ε α} {Q Q' : Except ε α → Memory → Prop} (h : Does E ownerUid P x Q)
    (hP : ∀ m, P' m → P m) (hQ : ∀ result m, Sound m → Q result m → Q' result m) :
    Does E ownerUid P' x Q' :=
  fun m hm hP' => (h m hm (hP m hP')).mono hQ

theorem Does.extract {fact : Prop} {x : App ε α} {Q : Except ε α → Memory → Prop}
    (hfact : ∀ m, P m → fact) (h : fact → Does E ownerUid P x Q) : Does E ownerUid P x Q :=
  fun m hm hP => h (hfact m hP) m hm hP

theorem Does.pure {value : α} {Q : Except ε α → Memory → Prop} (h : ∀ m, Sound m → P m → Q (.ok value) m) :
    Does E ownerUid P (pure value : App ε α) Q := fun m hm hP => ⟨hm, h m hm hP⟩

theorem Does.throw {e : ε} {Q : Except ε α → Memory → Prop} (h : ∀ m, Sound m → P m → Q (.error e) m) :
    Does E ownerUid P (throw e : App ε α) Q := fun m hm hP => ⟨hm, h m hm hP⟩

/-- INTERNAL: one program after another. -/
theorem Does.bind {x : App ε α} {f : α → App ε β} {Q : Except ε α → Memory → Prop}
    {Q' : Except ε β → Memory → Prop} (hx : Does E ownerUid P x Q)
    (hf : ∀ value, Does E ownerUid (Q (.ok value)) (f value) Q')
    (herror : ∀ e m, Sound m → Q (.error e) m → Q' (.error e) m) : Does E ownerUid P (x >>= f) Q' := by
  intro m hm hP
  rw [ExceptT.run_bind]
  refine Prog.Keeps.bind ((hx m hm hP).mono fun result m₁ hm₁ hresult => ?_)
  cases result with
  | ok value => exact hf value m₁ hm₁ hresult
  | error e => exact ⟨hm₁, herror e m₁ hm₁ hresult⟩

/-- INTERNAL: `ok_or` and what follows. -/
theorem Does.okOr {e : ε} {value : Option α} {f : α → App ε β} {Q : Except ε β → Memory → Prop}
    (hsome : ∀ a, value = some a → Does E ownerUid P (f a) Q)
    (hnone : value = none → ∀ m, P m → Q (.error e) m) : Does E ownerUid P (okOr e value >>= f) Q := by
  cases value with
  | some a => exact hsome a rfl
  | none => exact fun m hm hP => ⟨hm, hnone rfl m hP⟩

theorem Does.act {a : Act} {Q : Except ε (Ans a) → Memory → Prop}
    (h : ∀ moment answer m m₁, perform E ownerUid a moment m = some (answer, m₁) → Sound m → P m →
      Sound m₁ ∧ Q (.ok answer) m₁) : Does E ownerUid P (act a : App ε (Ans a)) Q := by
  intro m hm hP
  exact ⟨hm, fun moment answer m₁ hperform => h moment answer m m₁ hperform hm hP⟩

/-- INTERNAL: a program whose failure is a value. -/
theorem Does.attempt {x : App ε α} {Q : Except δ (Except ε α) → Memory → Prop}
    (h : Does E ownerUid P x fun result => Q (.ok result)) :
    Does E ownerUid P (attempt x : App δ (Except ε α)) Q := by
  intro m hm hP
  show Prog.Keeps _ _ (x.run >>= fun result => Prog.done (.ok result)) Q m
  exact Prog.Keeps.bind ((h m hm hP).mono fun result m₁ hm₁ hresult => ⟨hm₁, hresult⟩)

/-- INTERNAL: a program whose failure is told in other words. -/
theorem Does.adapt {x : App ε α} {f : ε → δ} {Q : Except δ α → Memory → Prop}
    (h : Does E ownerUid P x fun result => Q (result.mapError f)) :
    Does E ownerUid P (x.adapt f) Q := by
  intro m hm hP
  show Prog.Keeps _ _ (x.run >>= fun result => Prog.done (result.mapError f)) Q m
  exact Prog.Keeps.bind ((h m hm hP).mono fun result m₁ hm₁ hresult => ⟨hm₁, hresult⟩)

/-! ### Quiet programs -/

theorem Quiet.pure (value : α) : Quiet (pure value : App ε α) := trivial

theorem Quiet.throw (e : ε) : Quiet (throw e : App ε α) := trivial

theorem Quiet.act {a : Act} (ha : quiet a = true) : Quiet (Application.act a : App ε (Ans a)) :=
  ⟨ha, fun _ => trivial⟩

/-- INTERNAL: one quiet program after another. -/
theorem Quiet.bind {x : App ε α} {f : α → App ε β} (hx : Quiet x) (hf : ∀ value, Quiet (f value)) :
    Quiet (x >>= f) := by
  unfold Quiet
  rw [ExceptT.run_bind]
  refine Prog.Only.bind hx fun result => ?_
  cases result with
  | ok value => exact hf value
  | error e => trivial

theorem Quiet.choose {c : Prop} [Decidable c] {x y : App ε α} {f : α → App ε β} (hx : Quiet x)
    (hy : Quiet y) (hf : ∀ value, Quiet (f value)) : Quiet (if c then x >>= f else y >>= f) := by
  split_ifs
  · exact hx.bind hf
  · exact hy.bind hf

theorem Quiet.attempt {x : App ε α} (h : Quiet x) : Quiet (Application.attempt x : App δ (Except ε α)) :=
  Prog.Only.bind h fun _ => trivial

theorem Quiet.adapt {x : App ε α} (f : ε → δ) (h : Quiet x) : Quiet (x.adapt f) :=
  Prog.Only.bind h fun _ => trivial

theorem Quiet.ofExcept (f : ε → δ) (result : Except ε α) : Quiet (ofExcept f result) := by
  cases result <;> trivial

theorem Quiet.okOr (e : ε) (value : Option α) : Quiet (okOr e value) := by
  cases value <;> trivial

/-- INTERNAL: a quiet scope of a mutex. -/
theorem Quiet.withLock {l : Lock} {e : ε} {body : App ε α} (h : Quiet body) :
    Quiet (withLock l e body) := by
  refine Quiet.bind (Quiet.act rfl) fun taken => ?_
  split_ifs
  · exact Quiet.bind (Quiet.attempt h) fun result => Quiet.bind (Quiet.act rfl) fun _ =>
      Quiet.ofExcept _ result
  · trivial

/-- INTERNAL: **a quiet program is calm, whatever it answers.** -/
theorem Quiet.does {x : App ε α} (h : Quiet x) (m₀ : Memory) :
    Does E ownerUid (Calm m₀) x fun _ => Calm m₀ := by
  intro m hm hcalm
  refine Prog.Only.keeps h (fun a ha moment answer m m₁ hperform hm hfact => ?_) hm hcalm
  obtain ⟨hm₁, hnext⟩ := perform_calm ha hperform hm
  exact ⟨hm₁, hfact.trans hnext⟩

theorem Quiet.keeps {x : App ε α} (h : Quiet x) (hP : Stable P) : Does E ownerUid P x fun _ => P := by
  intro m hm hPm
  exact (h.does m m hm (Calm.refl m)).mono fun _ m₁ _ hcalm => hP m m₁ hcalm hPm

theorem Does.quiet {a : Act} (ha : quiet a = true) (hP : Stable P) :
    Does E ownerUid P (Application.act a : App ε (Ans a)) fun result m => result.isOk = true ∧ P m :=
  Does.act fun _ _ m m₁ hperform hm hPm =>
    ⟨(perform_calm ha hperform hm).1, rfl, hP m m₁ (perform_calm ha hperform hm).2 hPm⟩

theorem Does.raise {result : Except ε α} {Q : Except ε α → Memory → Prop} (h : ∀ m, P m → Q result m) :
    Does E ownerUid P (raise result) Q := by
  cases result with
  | ok value => exact Does.pure fun m _ hm => h m hm
  | error e => exact Does.throw fun m _ hm => h m hm

/-! ### Careful programs -/

theorem Quiet.careful {x : App ε α} (h : Quiet x) : Careful E ownerUid x :=
  fun m₀ => (h.does m₀).imp (fun _ hm => hm) fun _ _ _ hcalm _ => hcalm

theorem Careful.bind {x : App ε α} {f : α → App ε β} (hx : Careful E ownerUid x)
    (hf : ∀ value, Careful E ownerUid (f value)) : Careful E ownerUid (x >>= f) := by
  intro m₀
  refine Does.bind (hx m₀) (fun value => ?_) (fun e m _ _ herror => by simp [Except.isOk, Except.toBool] at herror)
  exact (hf value m₀).imp (fun m hm => hm rfl) fun _ _ _ h => h

/-- INTERNAL: a careful program whose failure is told in other words. -/
theorem Careful.adapt {x : App ε α} {f : ε → δ} (h : Careful E ownerUid x) :
    Careful E ownerUid (x.adapt f) := by
  intro m₀
  refine Does.adapt ((h m₀).imp (fun _ hm => hm) fun result m _ hresult hok => hresult ?_)
  cases result with
  | ok value => rfl
  | error e => exact hok

theorem Careful.keeps {x : App ε α} (h : Careful E ownerUid x) (hP : Stable P) :
    Does E ownerUid P x fun result m => result.isOk = true → P m :=
  fun m hm hPm => (h m m hm (Calm.refl m)).mono fun _ m₁ _ hcalm hok => hP m m₁ (hcalm hok) hPm

/-- INTERNAL: a scope of a mutex. -/
theorem Does.withLock {l : Lock} {e : ε} {body : App ε α} {Q : Except ε α → Memory → Prop} (hP : Stable P)
    (hQ : ∀ result, Stable (Q result)) (hbody : Does E ownerUid P body Q)
    (herror : ∀ m, P m → Q (.error e) m) : Does E ownerUid P (withLock l e body) Q := by
  refine Does.bind (Does.quiet rfl hP) (fun taken => ?_) fun e' m _ hm => by simp [Except.isOk, Except.toBool] at hm
  split_ifs
  · unfold holding
    have hresult : Does E ownerUid P (Application.attempt body : App ε (Except ε α))
        fun result m => ∃ value, result = .ok value ∧ Q value m :=
      Does.attempt (hbody.imp (fun _ hm => hm) fun result m _ hm => ⟨result, rfl, hm⟩)
    refine Does.bind (hresult.imp (fun m hm => hm.2) fun _ _ _ hm => hm) (fun value => ?_) fun e' m _ hm => ?_
    · refine Does.bind (Q := fun result m => result.isOk = true ∧ Q value m) ?_ (fun _ => ?_) fun e' m _ hm => ?_
      · refine (Does.quiet rfl (hQ value)).imp (fun m hm => ?_) fun _ _ _ hm => hm
        obtain ⟨value', heq, hm⟩ := hm
        rw [Except.ok.inj heq]
        exact hm
      · exact Does.raise fun m hm => hm.2
      · simp [Except.isOk, Except.toBool] at hm
    · obtain ⟨value, heq, -⟩ := hm
      simp at heq
  · exact Does.throw fun m _ hm => herror m hm.2

/-! ### Fine programs -/

theorem Careful.fine {x : App ε α} (h : Careful E ownerUid x) : Fine E ownerUid x :=
  fun m hm _ => (h m m hm (Calm.refl m)).mono fun _ _ _ _ => trivial

theorem Quiet.fine {x : App ε α} (h : Quiet x) : Fine E ownerUid x := h.careful.fine

theorem Fine.bind {x : App ε α} {f : α → App ε β} (hx : Fine E ownerUid x)
    (hf : ∀ value, Fine E ownerUid (f value)) : Fine E ownerUid (x >>= f) :=
  Does.bind hx hf fun _ _ _ _ => trivial

theorem Fine.attempt {x : App ε α} (h : Fine E ownerUid x) :
    Fine E ownerUid (attempt x : App δ (Except ε α)) := Does.attempt h

theorem Fine.adapt {x : App ε α} {f : ε → δ} (h : Fine E ownerUid x) : Fine E ownerUid (x.adapt f) :=
  Does.adapt h

theorem Fine.withLock {l : Lock} {e : ε} {body : App ε α} (h : Fine E ownerUid body) :
    Fine E ownerUid (withLock l e body) :=
  Does.withLock (fun _ _ _ h => h) (fun _ _ _ _ h => h) h fun _ _ => trivial

end Programs

end VaultAccess.Analysis.Serial
