import VaultAccess.Analysis.Recording
import VaultAccess.Library.Unambiguous

/-!
# Every life keeps what may run on disk

An execution records its lease before anything can start, watches the unit with the lease on
disk, and removes the lease only where the unit is free. A recovery and the executions after
it make a life, and one life follows another.
-/

set_option autoImplicit false

namespace VaultAccess.Analysis.Leases

open VaultAccess.Library VaultAccess.Library.Text VaultAccess.Model.Manager VaultAccess.Model.Leases
open VaultAccess.Model (ExecutionError ExecutionOutcome CleanupEvidence)

section Steps

variable {S : Setup} {m m₀ m₁ : Mem} {lease lease' : Lease} {α β σ : Type}

/-! ## Errors that are no collision -/

/-- The result says nothing about a unit of the same name. -/
def Clear (result : Except ExecutionError α) : Prop := result ≠ .error .unitCollision

theorem clear_ok (value : α) : Clear (.ok value : Except ExecutionError α) := by simp [Clear]

theorem clear_error {error : ExecutionError} (h : error ≠ .unitCollision) :
    Clear (.error error : Except ExecutionError α) := fun heq => h (Except.error.inj heq)

theorem Clear.error {error : ExecutionError} (h : Clear (.error error : Except ExecutionError α)) :
    Clear (.error error : Except ExecutionError β) := clear_error fun heq => h (by rw [heq])

theorem Clear.bind {result : Except ExecutionError α} {f : α → Except ExecutionError β} (h : Clear result)
    (hf : ∀ value, Clear (f value)) : Clear (result >>= f) := by
  cases result with
  | error error => exact h.error
  | ok value => exact hf value

theorem clear_get (value : Option α) : Clear (get value) := by
  cases value with
  | none => exact clear_error (by simp)
  | some value => exact clear_ok value

/-- INTERNAL: a check that fails for another reason. -/
theorem Clear.guard {p : Prop} [Decidable p] {error : ExecutionError} {f : Unit → Except ExecutionError β}
    (h : error ≠ .unitCollision) (hf : Clear (f ())) :
    Clear (if p then .error error >>= f else f () : Except ExecutionError β) := by
  split_ifs
  · exact (clear_error (α := Unit) h).error
  · exact hf

theorem clear_expects [DecidableEq α] (value : Option α) (expected : α) : Clear (expects value expected) := by
  apply (clear_get value).bind
  intro value
  split_ifs
  · exact clear_error (by simp)
  · exact clear_ok ()

/-- INTERNAL: the ownership contract fails for other reasons. -/
theorem clear_ownedView (config : Config) (lease : Lease) (view : UnitView) : Clear (ownedView config lease view) := by
  unfold ownedView
  repeat' first
    | apply (clear_expects _ _).bind; intro _
    | apply (clear_get _).bind; intro _
    | apply Clear.guard (by simp)
  exact clear_ok _

theorem clear_owned (config : Config) (root : String) (lease : Lease) (reply : UnitReply) :
    Clear (owned config root lease reply) := by
  unfold owned
  apply Clear.guard (by simp)
  apply (clear_get _).bind
  intro reply
  cases reply with
  | none => exact clear_ok _
  | some view => exact (clear_ownedView config lease view).bind fun identity => clear_ok _

theorem clear_isProvider (config : Config) (pid : UInt32) (reply : Option (String × String × UInt32)) :
    Clear (isProvider config pid reply) := by
  unfold isProvider
  split
  · exact clear_error (by simp)
  · split_ifs
    · exact clear_error (by simp)
    · exact clear_ok ()

theorem clear_helper (config : Config) (root : String) (lease : Lease) (pid : UInt32) (identity : Identity)
    (provider : Option (String × String × UInt32)) (reply : UnitReply) (cgroup : Option String) :
    Clear (VaultAccess.Model.Manager.helper config root lease pid identity provider reply cgroup) := by
  unfold VaultAccess.Model.Manager.helper
  apply (clear_isProvider config pid provider).bind
  intro _
  apply (clear_owned config root lease reply).bind
  intro current
  cases current with
  | none => exact clear_error (by simp)
  | some current =>
    apply Clear.guard (by simp)
    apply (clear_get cgroup).bind
    intro cgroup
    split_ifs
    · exact clear_error (by simp)
    · exact clear_ok ()

theorem clear_helperUnsetEnvironment (environment : List String) : Clear (helperUnsetEnvironment environment) := by
  unfold helperUnsetEnvironment
  split_ifs
  · exact clear_error (by simp)
  · split
    · exact clear_error (by simp)
    · split_ifs
      · exact clear_ok _
      · exact clear_error (by simp)

theorem clear_properties (config : Config) (name : String) (pid : UInt32) (micros : ℕ) (unset : List String) :
    Clear (properties config name pid micros unset) := by
  unfold properties
  split_ifs
  · exact clear_error (by simp)
  · exact clear_error (by simp)
  · exact clear_error (by simp)
  · exact clear_ok _

/-! ## Watching a unit -/

/-- The provider has recovered and the lease is on disk. -/
structure Holding (S : Setup) (lease : Lease) (m : Mem) : Prop where
  ready : Ready S m
  disk : OnDisk S m lease

theorem Holding.seen (h : Holding S lease m) : Holding S lease (m.log (.seen lease)) := by
  refine ⟨⟨h.ready.1.log (by simp) (by simp), h.ready.2.log ?_⟩, h.disk⟩
  intro other hother
  rw [← Event.seen.inj hother]
  exact h.disk

/-- The program leaves the lease on disk and ends well. -/
def Watches (S : Setup) (lease : Lease) (good : α → Prop) (p : Steps α) : Prop :=
  ∀ m, Holding S lease m →
    Prog.Keeps (perform S) (Ready S) p (fun value m' => Holding S lease m' ∧ good value) m

theorem Watches.done {good : α → Prop} {value : α} (h : good value) :
    Watches S lease good (.done value : Steps α) := fun _ hm => ⟨hm.ready, hm, h⟩

theorem Watches.bind {middle : α → Prop} {good : β → Prop} {p : Steps α} {f : α → Steps β}
    (h : Watches S lease middle p) (hf : ∀ value, middle value → Watches S lease good (f value)) :
    Watches S lease good (p >>= f) := by
  intro m hm
  apply Prog.Keeps.bind
  apply (h m hm).mono
  rintro value m₁ - ⟨hholding, hvalue⟩
  exact hf value hvalue m₁ hholding

/-- INTERNAL: an action that leaves the directory alone, or sees the unit. -/
theorem Watches.step {good : β → Prop} {a : Act} {f : Ans a → Steps β}
    (heffect : ∀ m answer, effect S m a answer = m ∨ effect S m a answer = m.log (.seen lease))
    (hf : ∀ answer, Watches S lease good (f answer)) : Watches S lease good (step a >>= f) := by
  intro m hm
  apply keeps_act hm.ready
  intro answer _
  rcases heffect m answer with hsame | hseen
  · rw [hsame]
    exact hf answer m hm
  · rw [hseen]
    exact hf answer _ hm.seen

theorem Watches.still {good : β → Prop} {a : Act} {f : Ans a → Steps β}
    (heffect : ∀ m answer, effect S m a answer = m) (hf : ∀ answer, Watches S lease good (f answer)) : Watches S lease good (VaultAccess.Model.Leases.step a >>= f) :=
  Watches.step (fun m answer => Or.inl (heffect m answer)) hf

/-- INTERNAL: **what every round of a loop keeps, the loop keeps.** -/
theorem keeps_loop {stopped kept : Mem → Prop} {ended : α → Mem → Prop} {body : σ → Steps (σ ⊕ α)} (s : σ)
    (hstopped : ∀ m, kept m → stopped m)
    (hbody : ∀ s m, kept m → Prog.Keeps (perform S) stopped (body s)
      (fun result m' => Sum.elim (fun _ => kept m') (fun value => ended value m') result) m)
    (hm : kept m) : Prog.Keeps (perform S) stopped (loop s body) ended m := by
  unfold loop
  apply keeps_act (hstopped m hm)
  intro rounds _
  show Prog.Keeps (perform S) stopped (roundsOf body rounds s) ended m
  clear * - hstopped hbody hm
  induction rounds generalizing s m with
  | zero => exact ⟨hstopped m hm, fun _ answer => answer.elim⟩
  | succ rounds ih =>
    apply Prog.Keeps.bind
    apply (hbody s m hm).mono
    intro result m₁ hm₁ hresult
    cases result with
    | inl s => exact ih s hresult
    | inr value => exact ⟨hm₁, hresult⟩

/-- INTERNAL: a loop whose every round leaves the lease on disk. -/
theorem Watches.loop {good : α → Prop} {body : σ → Steps (σ ⊕ α)}
    (hbody : ∀ s, Watches S lease (Sum.elim (fun _ => True) good) (body s)) (s : σ) :
    Watches S lease good (loop s body) := by
  intro m hm
  apply keeps_loop s (fun _ h => h.ready) _ hm
  intro s m hm
  apply (hbody s m hm).mono
  rintro result m₁ - ⟨hholding, hresult⟩
  cases result with
  | inl s => exact hholding
  | inr value => exact ⟨hholding, hresult⟩

/-! ## From the start to the outcome -/

theorem Watches.last {good : β → Prop} {a : Act} {f : Ans a → β} (heffect : ∀ m answer, effect S m a answer = m)
    (hf : ∀ answer, good (f answer)) :
    Watches S lease good (VaultAccess.Model.Leases.step a >>= fun answer => pure (f answer)) :=
  Watches.still heffect fun answer => Watches.done (hf answer)

theorem watches_provider : Watches S lease Clear (provider S) := by
  apply Watches.last (fun _ _ => rfl)
  exact fun answer => clear_isProvider _ _ _

theorem watches_helper (root : String) (lease' : Lease) (identity : Identity) :
    Watches S lease Clear (VaultAccess.Model.Leases.helper S root lease' identity) := by
  apply Watches.last (fun _ _ => rfl)
  rintro ⟨answer, reply, cgroup⟩
  exact clear_helper _ _ _ _ _ _ _ _

theorem watches_asked {a : Act} (h : Ans a = Except Refusal Unit) (heffect : ∀ m answer, effect S m a answer = m) :
    Watches S lease Clear (asked a h) := by
  apply Watches.still heffect
  intro answer
  cases cast h answer with
  | ok u => exact Watches.done (clear_ok ())
  | error error => exact Watches.done (clear_error error.property)

theorem watches_acceptChannel : Watches S lease Clear acceptChannel := by
  apply Watches.loop
  intro _
  apply Watches.still (fun _ _ => rfl)
  intro live
  cases live with
  | false => exact Watches.done (clear_error (by simp))
  | true =>
    apply Watches.still (fun _ _ => rfl)
    intro expired
    cases expired with
    | true => exact Watches.done (clear_error (by simp))
    | false =>
      apply Watches.still (fun _ _ => rfl)
      intro accepted
      cases accepted with
      | none => exact Watches.done (clear_error (by simp))
      | some accepted =>
        cases accepted with
        | true => exact Watches.done (clear_ok ())
        | false => exact Watches.done trivial

theorem watches_awaitReady : Watches S lease Clear awaitReady := by
  apply Watches.loop
  intro _
  apply Watches.still (fun _ _ => rfl)
  intro live
  cases live with
  | false => exact Watches.done (clear_error (by simp))
  | true =>
    apply Watches.still (fun _ _ => rfl)
    intro expired
    cases expired with
    | true => exact Watches.done (clear_error (by simp))
    | false =>
      apply Watches.still (fun _ _ => rfl)
      intro received
      cases received with
      | none => exact Watches.done (clear_error (by simp))
      | some report =>
        cases report with
        | none => exact Watches.done trivial
        | some report =>
          cases report with
          | ready => exact Watches.done (clear_ok ())
          | execConfirmed => exact Watches.done (clear_error (by simp))
          | outcome outcome => exact Watches.done (clear_error (by simp))
          | reaped => exact Watches.done (clear_error (by simp))
          | failed => exact Watches.done (clear_error (by simp))

theorem watches_confirmed (agent : Bool) : Watches S lease Clear (confirmed agent) := by
  apply (watches_asked rfl fun _ _ => rfl).bind
  intro result hresult
  cases result with
  | error error => exact Watches.done hresult
  | ok u =>
    cases agent with
    | true => exact watches_asked rfl fun _ _ => rfl
    | false => exact Watches.done (clear_ok ())

/-- INTERNAL: the last check of a round. -/
theorem watches_checked (executed : Bool) :
    Watches S lease Clear (do
      match ← provider S with
      | .error error => return .error error
      | .ok () => return .ok executed) := by
  apply watches_provider.bind
  intro result hresult
  cases result with
  | error error => exact Watches.done hresult.error
  | ok u => exact Watches.done (clear_ok executed)

theorem watches_afterReport (agent executed : Bool) : Watches S lease Clear (afterReport S agent executed) := by
  apply Watches.still (fun _ _ => rfl)
  intro live
  cases live with
  | false => exact Watches.done (clear_error (by simp))
  | true =>
    cases executed with
    | false =>
      apply Watches.still (fun _ _ => rfl)
      intro expired
      cases expired with
      | true => exact Watches.done (clear_error (by simp))
      | false => exact watches_checked false
    | true =>
      cases agent with
      | false => exact watches_checked true
      | true =>
        apply (watches_asked rfl fun _ _ => rfl).bind
        intro result hresult
        cases result with
        | error error => exact Watches.done hresult.error
        | ok u => exact watches_checked true

/-- INTERNAL: what follows a report in the loop. -/
theorem watches_after (agent executed : Bool) :
    Watches S lease (Sum.elim (fun _ => True) Clear) (do
      match ← afterReport S agent executed with
      | .error error => return .inr (.error error)
      | .ok executed => return .inl executed :
        Steps (Bool ⊕ Except ExecutionError ExecutionOutcome)) := by
  apply (watches_afterReport agent executed).bind
  intro result hresult
  cases result with
  | error error => exact Watches.done hresult.error
  | ok executed => exact Watches.done trivial

theorem watches_observe (agent : Bool) : Watches S lease Clear (observe S agent) := by
  apply Watches.loop
  intro executed
  apply Watches.still (fun _ _ => rfl)
  intro received
  cases received with
  | none => exact Watches.done (clear_error (by simp))
  | some report =>
    cases report with
    | none => exact watches_after agent executed
    | some report =>
      cases report with
      | execConfirmed =>
        cases executed with
        | true => exact Watches.done (clear_error (by simp))
        | false =>
          apply (watches_confirmed agent).bind
          intro result hresult
          cases result with
          | error error => exact Watches.done hresult.error
          | ok u => exact watches_after agent true
      | outcome outcome =>
        cases executed with
        | true => exact Watches.done (clear_ok outcome)
        | false => exact Watches.done (clear_error (by simp))
      | ready => exact Watches.done (clear_error (by simp))
      | reaped => exact Watches.done (clear_error (by simp))
      | failed => exact Watches.done (clear_error (by simp))

theorem watches_transfer (root : String) (lease' : Lease) (identity : Identity) (agent : Bool) :
    Watches S lease (fun launched => Clear launched.result) (transfer S root lease' identity agent) := by
  apply (watches_helper root lease' identity).bind
  intro checked hchecked
  cases checked with
  | error error => exact Watches.done hchecked.error
  | ok u =>
    apply Watches.still (fun _ _ => rfl)
    intro live
    cases live with
    | false => exact Watches.done (clear_error (by simp))
    | true =>
      apply Watches.still (fun _ _ => rfl)
      intro sent
      cases sent with
      | false => exact Watches.done (clear_error (by simp))
      | true =>
        apply watches_awaitReady.bind
        intro ready hready
        cases ready with
        | error error => exact Watches.done hready.error
        | ok u =>
          apply (watches_helper root lease' identity).bind
          intro again hagain
          cases again with
          | error error => exact Watches.done hagain.error
          | ok u =>
            apply (watches_asked rfl fun _ _ => rfl).bind
            intro released hreleased
            cases released with
            | error error => exact Watches.done hreleased.error
            | ok u =>
              apply (watches_observe agent).bind
              intro result hresult
              exact Watches.done hresult

theorem watches_launched (root : String) (agent : Bool) :
    Watches S lease (fun launched => Clear launched.result) (launched S root lease agent) := by
  apply Watches.step
  · intro m reply
    rcases effect_owned S m root lease reply with hsame | ⟨hseen, -⟩
    · exact Or.inl hsame
    · exact Or.inr hseen
  · intro reply
    have howned := clear_owned S.config root lease reply
    cases hreply : owned S.config root lease reply with
    | error error =>
      rw [hreply] at howned
      exact Watches.done howned.error
    | ok identity =>
      cases identity with
      | none => exact Watches.done (clear_error (by simp))
      | some identity =>
        apply (watches_helper root lease identity).bind
        intro checked hchecked
        cases checked with
        | error error => exact Watches.done hchecked.error
        | ok u =>
          apply watches_acceptChannel.bind
          intro accepted haccepted
          cases accepted with
          | error error => exact Watches.done haccepted.error
          | ok u => exact watches_transfer root lease identity agent

/-! ## The start -/

/-- No unit of the lease may run or was seen. -/
structure Unstarted (m : Mem) (lease : Lease) : Prop where
  still : ¬ MayRun m.events lease
  unseen : ¬ Spotted m.events lease

/-- INTERNAL: the name was taken, and nothing was started. -/
theorem Unstarted.free (h : Unstarted m lease) : Free (m.log (.collided lease)) lease := by
  constructor
  · intro hmay
    rcases mayRun_snoc.mp hmay with hnew | ⟨hold, -⟩
    · cases hnew
    · exact h.still hold
  · intro hspotted
    rcases spotted_snoc.mp hspotted with hnew | ⟨hold, -⟩
    · cases hnew
    · exact h.unseen hold
  · exact ended_snoc.mpr (Or.inl ⟨lease, rfl, Or.inr rfl⟩)

theorem Holding.started (h : Holding S lease m) : Holding S lease (m.log (.started lease)) := by
  refine ⟨⟨h.ready.1.log ?_ (by simp), h.ready.2.log (by simp)⟩, h.disk⟩
  intro other hother
  rw [← Event.started.inj hother]
  exact h.disk

theorem Holding.collided (h : Holding S lease m) : Holding S lease (m.log (.collided lease)) :=
  ⟨⟨h.ready.1.log (by simp) (by simp), h.ready.2.log (by simp)⟩, h.disk⟩

/-- INTERNAL: **a start that collides starts nothing.** -/
theorem keeps_start (hm : Holding S lease m) (hunstarted : Unstarted m lease) :
    Prog.Keeps (perform S) (Ready S) (start S lease)
      (fun result m' => Holding S lease m' ∧ (result = .error .unitCollision → Free m' lease)) m := by
  have hclear : ∀ {m'} {result : Except ExecutionError Unit}, Holding S lease m' → Clear result →
      Ready S m' ∧ Holding S lease m' ∧ (result = .error .unitCollision → Free m' lease) :=
    fun h hresult => ⟨h.ready, h, fun heq => absurd heq hresult⟩
  unfold start
  apply keeps_act hm.ready
  intro remaining _
  apply keeps_act hm.ready
  intro environment _
  cases environment with
  | none => exact hclear hm (clear_error (by simp))
  | some environment =>
    have hunset := clear_helperUnsetEnvironment environment
    cases hhelper : helperUnsetEnvironment environment with
    | error error =>
      rw [hhelper] at hunset
      simp only [hhelper]
      exact hclear hm hunset.error
    | ok unset =>
      simp only [hhelper]
      have hproperties := clear_properties S.config lease.name S.pid remaining unset
      cases hresult : properties S.config lease.name S.pid remaining unset with
      | error error =>
        rw [hresult] at hproperties
        exact hclear hm hproperties.error
      | ok properties =>
        apply keeps_act hm.ready
        intro reply _
        cases reply with
        | unitExists => exact ⟨hm.collided.ready, hm.collided, fun _ => hunstarted.free⟩
        | failed => exact hclear hm.started (clear_error (by simp))
        | job =>
          apply keeps_act hm.started.ready
          intro job _
          cases job with
          | done => exact hclear hm.started (clear_ok ())
          | otherwise => exact hclear hm.started (clear_error (by simp))
          | untold => exact hclear hm.started (clear_error (by simp))

theorem keeps_launch (root : String) (agent : Bool) (hm : Holding S lease m) (hunstarted : Unstarted m lease) :
    Prog.Keeps (perform S) (Ready S) (launch S root lease agent)
      (fun launched m' => Holding S lease m' ∧ (launched.result = .error .unitCollision → Free m' lease)) m := by
  unfold launch
  apply keeps_act hm.ready
  intro live _
  cases live with
  | false => exact ⟨hm.ready, hm, by simp⟩
  | true =>
    apply Prog.Keeps.bind
    apply (keeps_start hm hunstarted).mono
    rintro result m₁ - ⟨hholding, hfree⟩
    cases result with
    | error error =>
      refine ⟨hholding.ready, hholding, fun heq => hfree ?_⟩
      rw [Except.error.inj heq]
    | ok u =>
      apply (watches_launched root agent m₁ hholding).mono
      rintro launched m₂ - ⟨hholding₂, hclear⟩
      exact ⟨hholding₂, fun heq => absurd heq hclear⟩

/-! ## The end of an execution -/

theorem Ready.unhealthy (h : Ready S m) : Ready S { m with healthy := false } :=
  ⟨⟨h.1.proper, h.1.unique, h.1.kept, h.1.ended⟩, h.2⟩

theorem Holding.unhealthy (h : Holding S lease m) : Holding S lease { m with healthy := false } :=
  ⟨h.ready.unhealthy, h.disk⟩

/-- INTERNAL: **the loop ends with `true` only where the unit was seen unused.** -/
theorem keeps_awaitUnused (root : String) (hm : Holding S lease m) :
    Prog.Keeps (perform S) (Ready S) (awaitUnused S root lease)
      (fun unused m' => Holding S lease m' ∧ (unused = true → Free m' lease)) m := by
  unfold awaitUnused
  apply keeps_loop () (fun _ h => h.ready) _ hm
  intro _ m hm
  apply keeps_act hm.ready
  intro evidence _
  rw [effect_unused]
  split_ifs with hunused
  · rw [hunused]
    have hholding : Holding S lease (m.log (.unused lease)) := ⟨hm.ready.unused, hm.disk⟩
    exact ⟨hholding.ready, hholding, fun _ => free_unused m lease⟩
  · have hagain : Prog.Keeps (perform S) (Ready S)
        (step .expired >>= fun expired => if expired then pure (Sum.inr false) else pure (Sum.inl ()))
        (fun (result : Unit ⊕ Bool) m' => Sum.elim (fun _ => Holding S lease m')
          (fun unused => Holding S lease m' ∧ (unused = true → Free m' lease)) result) m := by
      apply keeps_act hm.ready
      intro expired _
      cases expired with
      | true => exact ⟨hm.ready, hm, by simp⟩
      | false => exact ⟨hm.ready, hm⟩
    cases hseen : unused S.config root lease evidence with
    | error error => exact hagain
    | ok idle =>
      cases idle with
      | true => exact absurd hseen hunused
      | false => exact hagain

theorem keeps_forgetOrUnhealthy (hm : Holding S lease m) (hfree : Free m lease) :
    Prog.Keeps (perform S) (Ready S) (forgetOrUnhealthy lease) (fun _ _ => True) m := by
  unfold forgetOrUnhealthy
  apply Prog.Keeps.bind
  apply (keeps_forget hm.ready hm.disk.1 (hm.disk.claims hm.ready.1) hfree).mono
  intro result m₁ hm₁ _
  cases result with
  | ok u => exact ⟨hm₁, trivial⟩
  | error error =>
    apply keeps_act hm₁
    intro answer _
    exact ⟨hm₁.unhealthy, trivial⟩

/-- INTERNAL: the last reading, the loop and the removal. -/
theorem keeps_finish (root : String) (launched : Launched) (hm : Holding S lease m) :
    Prog.Keeps (perform S) (Ready S) (finish S root lease launched) (fun _ _ => True) m := by
  unfold finish
  extract_lets awaited observed
  have hawaited : ∀ reaped m, Holding S lease m →
      Prog.Keeps (perform S) (Ready S) (awaited reaped) (fun _ _ => True) m := by
    intro reaped m hm
    apply Prog.Keeps.bind
    apply (keeps_awaitUnused root hm).mono
    rintro unused m₁ - ⟨hholding, hfree⟩
    cases unused with
    | false => exact ⟨hholding.ready, trivial⟩
    | true =>
      apply Prog.Keeps.bind
      apply (keeps_forgetOrUnhealthy hholding (hfree rfl)).mono
      exact fun _ _ hready _ => ⟨hready, trivial⟩
  have hobserved : ∀ m, Holding S lease m →
      Prog.Keeps (perform S) (Ready S) (observed ()) (fun _ _ => True) m := by
    intro m hm
    unfold observed
    split_ifs
    · apply keeps_act hm.ready
      exact fun report _ => hawaited report m hm
    · exact hawaited none m hm
  split
  · apply keeps_act hm.ready
    exact fun _ _ => hobserved _ hm.unhealthy
  · exact hobserved m hm

/-! ## An execution -/

/-- INTERNAL: after the lease was recorded. -/
theorem keeps_recorded (root : String) (agent : Bool) (hm : Holding S lease m) (hunstarted : Unstarted m lease) :
    Prog.Keeps (perform S) (Ready S) (do
      let launched ← launch S root lease agent
      if agent then step .close
      match launched.result with
      | .error .unitCollision =>
        forgetOrUnhealthy lease
        return notStarted .unitCollision
      | _ => finish S root lease launched) (fun _ _ => True) m := by
  apply Prog.Keeps.bind
  apply (keeps_launch root agent hm hunstarted).mono
  rintro launched m₁ - ⟨hholding, hfree⟩
  extract_lets ended
  have hended : Prog.Keeps (perform S) (Ready S) (ended ()) (fun _ _ => True) m₁ := by
    unfold ended
    split
    · next hcollided =>
      apply Prog.Keeps.bind
      apply (keeps_forgetOrUnhealthy hholding (hfree hcollided)).mono
      exact fun _ _ hready _ => ⟨hready, trivial⟩
    · exact keeps_finish root launched hholding
  cases agent with
  | false => exact hended
  | true =>
    apply keeps_act hholding.ready
    exact fun _ _ => hended

/-- INTERNAL: **an execution keeps what may run on disk.** -/
theorem keeps_execute (agent : Bool) (hm : Ready S m) :
    Prog.Keeps (perform S) (Ready S) (execute S agent) (fun _ _ => True) m := by
  unfold execute
  apply keeps_act hm
  intro healthy _
  cases healthy with
  | false => exact ⟨hm, trivial⟩
  | true =>
    apply keeps_act hm
    intro live _
    cases live with
    | false => exact ⟨hm, trivial⟩
    | true =>
      apply Prog.Keeps.bind
      unfold connect
      apply keeps_act hm
      intro answer _
      cases answer with
      | none => exact ⟨hm, hm, trivial⟩
      | some root =>
        by_cases hvalid : validCgroup root = true
        · simp only [hvalid, if_true]
          refine ⟨hm, ?_⟩
          apply keeps_act hm
          intro answer _
          cases isProvider S.config S.pid answer with
          | error error => exact ⟨hm, trivial⟩
          | ok u =>
            apply keeps_act hm
            intro random _
            cases random with
            | none => exact ⟨hm, trivial⟩
            | some random =>
              apply keeps_act hm
              intro bound _
              cases bound with
              | false => exact ⟨hm, trivial⟩
              | true =>
                apply Prog.Keeps.bind
                apply (keeps_record (leaseOf root (S.config.name random)) hm.1).stopped_mono
                · exact fun m₁ hnear => hnear.ready hm
                · intro result m₁ hnear hrecorded
                  cases result with
                  | error error => exact ⟨hnear.ready hm, trivial⟩
                  | ok u =>
                    obtain ⟨hdisk, hfresh⟩ := hrecorded rfl
                    -- a unit of this name that may run or was seen would have had its lease
                    apply keeps_recorded root agent ⟨hnear.ready hm, hdisk⟩
                    constructor
                    · intro hmay
                      exact hfresh _ rfl (hm.1.kept _ (hnear.mayRun.mp hmay))
                    · intro hspotted
                      exact hfresh _ rfl (hm.2 _ (hnear.spotted.mp hspotted))
        · simp only [hvalid, Bool.false_eq_true, if_false]
          exact ⟨hm, hm, trivial⟩

/-! ## Lives -/

theorem keeps_executions (requests : List Bool) : ∀ m, Ready S m →
    Prog.Keeps (perform S) (Ready S) (executions S requests) (fun _ _ => True) m := by
  induction requests with
  | nil => exact fun m hm => ⟨hm, trivial⟩
  | cons agent rest ih =>
    intro m hm
    apply Prog.Keeps.bind
    apply (keeps_execute agent hm).mono
    exact fun _ m₁ hm₁ _ => ih m₁ hm₁

/-- INTERNAL: **a life.** -/
theorem keeps_program (life : Life) (hbase : Base S m) (hearly : Early m.events) (hscanned : Scanned S m) :
    Prog.Keeps (perform S) (Inv S) (life.program S) (fun _ _ => True) m := by
  cases life with
  | daemon requests =>
    apply Prog.Keeps.bind
    apply (keeps_recover false hbase hearly hscanned).mono
    intro result m₁ hm₁ hready
    cases result with
    | error error => exact ⟨hm₁, trivial⟩
    | ok u =>
      apply (keeps_executions requests m₁ (hready rfl)).stopped_mono
      · exact fun _ h => h.inv
      · exact fun _ _ _ _ => trivial
  | reconcile =>
    apply Prog.Keeps.bind
    apply (keeps_recover true hbase hearly hscanned).mono
    exact fun _ _ hinv _ => ⟨hinv, trivial⟩

/-- INTERNAL: the first life finds an empty directory. -/
theorem inv_initial : Inv S Mem.initial := by
  refine ⟨⟨by simp [Mem.initial], by simp [Mem.initial], ?_, by simp [Mem.initial]⟩, Or.inr ?_⟩
  · intro lease hmay
    exact absurd hmay not_since_nil
  · intro lease hspotted
    exact absurd hspotted not_since_nil

theorem Inv.live (h : Inv S m) (life : Life × List Input) : Inv S (m.live S life) := by
  obtain ⟨hbase, hearly, hscanned⟩ := h.restarted
  exact ((keeps_program life.1 hbase hearly hscanned).runFor life.2).1

/-- INTERNAL: **every run.** -/
theorem Inv.run (h : Inv S m) (lives : List (Life × List Input)) : Inv S (m.run S lives) := by
  induction lives generalizing m with
  | nil => exact h
  | cons life rest ih => exact ih (h.live life)

/-! ## The leases of the file system can be read -/

end Steps

/-! ## What is known of a unit that is not in use -/

/-- A process that is gone, or is the same one before and after and has other groups. -/
def Elsewhere (cgroup : String) (before groups after : Reading) : Prop :=
  before = .missing ∨ groups = .missing ∨ after = .missing ∨
    ∃ first text last time, before = .text first ∧ groups = .text text ∧ after = .text last ∧
      startTime first = some time ∧ startTime last = some time ∧ unifiedGroups text ≠ [] ∧
      ∀ path ∈ unifiedGroups text, belongs (String.ofList path) cgroup = false

/-- An entry of the inventory that was met in time and is no process of the group. -/
def Outside (cgroup : String) (e : ProcEntry) : Prop :=
  e.hasBudget = true ∧ ∃ name before groups after, e.entry = some (name, before, groups, after) ∧
    (name.any isNumber = true → Elsewhere cgroup before groups after)

/-- The unit is gone or has ended, and the whole inventory was met in time and is outside its
group. -/
structure Idle (lease : Lease) (evidence : Evidence) : Prop where
  ended : evidence.second = some none ∨ ∃ view, evidence.second = some (some view) ∧
    (view.activeState = some "inactive" ∨ view.activeState = some "failed")
  processes : ∃ entries, evidence.inventory = some entries ∧ evidence.hasBudget = true ∧
    ∀ e ∈ entries, Outside lease.cgroup e

section Idle

variable {cgroup : String}

/-- INTERNAL: a process that is not in the group. -/
theorem elsewhere_of_inGroup {before groups after : Reading} (h : inGroup cgroup before groups after = .ok false) :
    Elsewhere cgroup before groups after := by
  cases before with
  | failed => cases h
  | missing => exact Or.inl rfl
  | text first =>
    cases groups with
    | failed => cases h
    | missing => exact Or.inr (Or.inl rfl)
    | text text =>
      cases after with
      | failed => cases h
      | missing => exact Or.inr (Or.inr (Or.inl rfl))
      | text last =>
        simp only [inGroup] at h
        split at h
        · next time time' hfirst hlast =>
          by_cases hsame : time = time'
          · rw [if_neg (not_not_intro hsame)] at h
            split_ifs at h with hbelongs hempty
            · cases h
            · refine Or.inr (Or.inr (Or.inr ⟨first, text, last, time, rfl, rfl, rfl, hfirst, ?_, ?_, ?_⟩))
              · rw [hlast, hsame]
              · simpa using hempty
              · simpa using hbelongs
          · rw [if_pos hsame] at h
            cases h
        · cases h

/-- INTERNAL: the inventory, entry by entry. -/
theorem outside_of_procEmptyFrom {hasBudget : Bool} {entries : List ProcEntry}
    (h : procEmptyFrom cgroup hasBudget entries = .ok true) :
    hasBudget = true ∧ ∀ e ∈ entries, Outside cgroup e := by
  induction entries with
  | nil =>
    simp only [procEmptyFrom] at h
    split_ifs at h with hbudget
    exact ⟨hbudget, by simp⟩
  | cons e rest ih =>
    unfold procEmptyFrom at h
    split_ifs at h with hbudget
    have hbudget : e.hasBudget = true := by simpa using hbudget
    split at h
    · cases h
    · next name before groups after hentry =>
      split_ifs at h with hnumber
      · obtain ⟨hall, hrest⟩ := ih h
        refine ⟨hall, List.forall_mem_cons.mpr ⟨⟨hbudget, name, before, groups, after, hentry, ?_⟩, hrest⟩⟩
        intro hnumeric
        rw [hnumeric] at hnumber
        cases hnumber
      · split at h
        · cases h
        · cases h
        · next hgroup =>
          obtain ⟨hall, hrest⟩ := ih h
          refine ⟨hall, List.forall_mem_cons.mpr ⟨⟨hbudget, name, before, groups, after, hentry, ?_⟩, hrest⟩⟩
          exact fun _ => elsewhere_of_inGroup hgroup

theorem outside_of_procEmpty {inventory : Option (List ProcEntry)} {hasBudget : Bool}
    (h : procEmpty cgroup inventory hasBudget = .ok true) :
    ∃ entries, inventory = some entries ∧ hasBudget = true ∧ ∀ e ∈ entries, Outside cgroup e := by
  unfold procEmpty at h
  split_ifs at h
  cases inventory with
  | none => cases h
  | some entries =>
    obtain ⟨hbudget, hall⟩ := outside_of_procEmptyFrom h
    exact ⟨entries, rfl, hbudget, hall⟩

/-- INTERNAL: **a unit is taken for unused only where it is idle.** -/
theorem idle_of_unused {config : Config} {root : String} {lease : Lease} {evidence : Evidence}
    (h : unused config root lease evidence = .ok true) : Idle lease evidence := by
  unfold unused at h
  cases hfirst : owned config root lease evidence.first with
  | error error => rw [hfirst] at h; cases h
  | ok identity =>
    rw [hfirst] at h
    cases hsecond : evidence.second with
    | none => rw [hsecond] at h; cases h
    | some unit =>
      rw [hsecond] at h
      cases unit with
      | none => exact ⟨Or.inl hsecond, outside_of_procEmpty h⟩
      | some view =>
        replace h : (VaultAccess.Model.Manager.get view.activeState >>= fun active =>
            if active ≠ "inactive" && active ≠ "failed" then pure false
            else procEmpty lease.cgroup evidence.inventory evidence.hasBudget) = .ok true := h
        cases hactive : view.activeState with
        | none => rw [hactive] at h; cases h
        | some active =>
          rw [hactive] at h
          replace h : (if active ≠ "inactive" && active ≠ "failed" then pure false
            else procEmpty lease.cgroup evidence.inventory evidence.hasBudget) = .ok true := h
          split_ifs at h with hbusy
          · cases h
          · refine ⟨Or.inr ⟨view, hsecond, ?_⟩, outside_of_procEmpty h⟩
            rw [hactive]
            simp only [Bool.and_eq_true, decide_eq_true_eq, ne_eq, not_and, Classical.not_not] at hbusy
            by_cases hinactive : active = "inactive"
            · exact Or.inl (congrArg some hinactive)
            · exact Or.inr (congrArg some (hbusy hinactive))

end Idle

/-! ## Every run -/

/-- The memory that the next life begins with. -/
def next (m : Mem) : Mem := { m with healthy := true, events := m.events ++ [.restarted] }

/-- What holds after any lives, wherever the last one stopped. -/
structure Kept (S : Setup) (m : Mem) : Prop where
  /-- A unit that was started and not seen unused since has its lease on disk. -/
  recorded : ∀ lease, MayRun m.events lease → OnDisk S m lease
  /-- A recovery removes nothing before every unit it saw has its lease. -/
  recreated : Early m.events ∨ ∀ lease, Spotted m.events lease → OnDisk S m lease
  /-- Before a lease was removed, its unit was seen unused or its name collided, and no unit of
  the name was started after that. -/
  removed : ∀ front name back, m.events = front ++ .forgot name :: back → Ended name front
  /-- A unit that is taken for unused is idle. -/
  idle : ∀ root lease evidence, unused S.config root lease evidence = .ok true → Idle lease evidence
  /-- Under a final name lies a complete lease. -/
  whole : ∀ e ∈ m.files, S.config.kind e.1 ≠ .staging → ∃ lease : Lease,
    S.config.ownsName lease.name = true ∧ e.1 = leasePath lease.name ∧ e.2.content = encode lease
  /-- The next reading returns the complete leases and nothing else. It fails only if an action
  on the directory does, or a complete lease is too long. -/
  read : ∀ inputs result, ((leases S).runFor (perform S) inputs (next m)).1 = some result →
    Listed S (next m) result ((leases S).runFor (perform S) inputs (next m)).2

end VaultAccess.Analysis.Leases
