import VaultAccess.Analysis.Facts

/-!
# The sessions' and agents' entry points are orderly

Each program keeps to the discipline whatever lasting fact the thread knows, if the thread
holds the gate where the program needs it.
-/

set_option autoImplicit false

namespace VaultAccess.Analysis

open VaultAccess.Library VaultAccess.Model VaultAccess.Model.Application

section Orderly

variable {T : Thread} {ε α : Type} {H : List Lock} {F : Shared → Prop}

/-! ## Actions under the gate -/

theorem orderly_update {u : AuthorityUpdate} (hF : T.Lasts F) (hgate : .gate ∈ H)
    (hgood : ∀ m, Inv T.E m → F m → GoodUpdate m u) :
    Orderly T H F (act (.update u) : App ε Unit) :=
  orderly_act trivial hF.stable (hF.kept _) fun m hinv hm =>
    ⟨hm.locks .gate hgate, hgood m hinv hm.fact⟩

/-- INTERNAL: an operation every call may make. -/
theorem orderly_housekeeping {op : Op} (hF : T.Lasts F) (hgate : .gate ∈ H)
    (hop : op.housekeeping = true) :
    Orderly T H F (act (.provider op) : App ε (Except op.Error op.Value)) := by
  refine orderly_act trivial hF.stable (hF.kept _) fun m _ hm =>
    ⟨hm.locks .gate hgate, fun hclaim => ?_, fun _ _ => Or.inl hop⟩
  cases op <;> simp [isClaim, Op.housekeeping] at hclaim hop

theorem good_operation {op : Op} {m : Shared} (hgate : Holds T.number .gate m)
    (hfresh : Fresh T.number m) (hclaim : isClaim op = false) : Good T.number (.provider op) m := by
  refine ⟨hgate, fun h => ?_, fun call hcall => absurd hcall (hfresh.2 call)⟩
  rw [hclaim] at h
  simp at h

theorem orderly_operation {op : Op} (hF : T.Lasts F) (hgate : .gate ∈ H)
    (hfresh : ∀ m, F m → Fresh T.number m) (hclaim : isClaim op = false) :
    Orderly T H F (act (.provider op) : App ε (Except op.Error op.Value)) :=
  orderly_act trivial hF.stable (hF.kept _) fun m _ hm =>
    good_operation (hm.locks .gate hgate) (hfresh m hm.fact) hclaim

/-- INTERNAL: **what an operation that succeeds leaves.** -/
theorem does_operation {op : Op} {R : Shared → Prop} {P : op.Value → Shared → Prop}
    (hF : T.Lasts F) (hP : ∀ value, T.Stable (P value))
    (hgood : ∀ m, Inv T.E m → Held T.number H F m → Good T.number (.provider op) m)
    (hpost : ∀ m input value, Inv T.E m → Held T.number H F m →
      (m.authority.store.call T.E T.ownerUid op input.env input.outcome input.unreadable).2 =
        .ok value → P value (performProvider T.E T.ownerUid T.number op input m).2) :
    Does T H F (act (.provider op) : App ε (Except op.Error op.Value))
      (fun result m => F m ∧ ∀ value, result = .ok value → P value m) R := by
  refine does_act trivial hF.stable (fun result => ?_) hgood ?_
  · exact fun m m₁ hrely hinv hm => ⟨hF.stable m m₁ hrely hinv hm.1, fun value hvalue =>
      hP value m m₁ hrely hinv (hm.2 value hvalue)⟩
  · intro m input result m₁ hinv hm hperform hinv₁ hgrows
    refine ⟨hF m m₁ hgrows hinv₁ hm.fact, fun value hvalue => ?_⟩
    obtain ⟨hresult, rfl⟩ := Prod.mk.inj (Option.some.inj hperform)
    exact hpost m input value hinv hm (hresult.trans hvalue)

/-- INTERNAL: an action that a holder of a gate may perform. -/
theorem orderly_gated {a : Act} {l : Lock} (hF : T.Lasts F) (hl : l ∈ H)
    (hgate : l = .gate ∨ l = .releaseGate) (hkeeps : keepsLocks H a)
    (hgood : ∀ m, HoldsGate T.number m → F m → Good T.number a m) :
    Orderly T H F (act a : App ε (Ans a)) := by
  refine orderly_act hkeeps hF.stable (hF.kept _) fun m _ hm => hgood m ?_ hm.fact
  rcases hgate with rfl | rfl
  · exact Or.inl (hm.locks _ hl)
  · exact Or.inr (hm.locks _ hl)

/-- INTERNAL: the scope of `try_lock` on the gate. -/
theorem does_withTryGate {busy poisoned : ε} {body : App ε α} {G : α → Shared → Prop}
    (hF : T.Lasts F) (hG : ∀ value, T.Lasts (G value)) (hl : .gate ∉ H)
    (hbody : Does T (.gate :: H) F body G F) :
    Does T H F (withTryLock .gate busy poisoned body) G F := by
  have hstable : ∀ H, T.Stable (Held T.number H F) := fun H => Thread.held_stable hF.stable
  refine Spec.bind (Q := fun answer => match answer with
    | .acquired => Held T.number (.gate :: H) F
    | _ => Held T.number H F) (hstable H) (spec_act (hstable H) ?_ (fun _ _ _ => trivial) ?_)
    fun answer => ?_
  · intro answer
    cases answer with
    | acquired => exact hstable (.gate :: H)
    | busy | poisoned => exact hstable H
  · intro m input answer m₁ hinv hm hperform hinv₁ hgrows
    have hfact := hF m m₁ hgrows hinv₁ hm.fact
    have hlocks := holds_performAct H (.tryAcquire .gate) trivial hperform hm.locks
    simp only [performAct] at hperform
    split_ifs at hperform
    · rw [← (Prod.mk.inj (Option.some.inj hperform)).1]
      exact ⟨hlocks, hfact⟩
    · rw [← (Prod.mk.inj (Option.some.inj hperform)).1]
      exact ⟨hlocks, hfact⟩
    · rw [← (Prod.mk.inj (Option.some.inj hperform)).1]
      refine ⟨fun l hl => ?_, hfact⟩
      rcases List.mem_cons.mp hl with rfl | hl
      · rw [← (Prod.mk.inj (Option.some.inj hperform)).2]
        simp [Holds, Shared.take]
      · exact hlocks l hl
  · cases answer with
    | acquired =>
      exact spec_holding hl (fun value => (hG value).stable) hF.stable
        (fun value => (hG value).kept _) (hF.kept _) hbody
    | busy | poisoned => exact does_throw hF.stable fun _ _ hm => hm

theorem orderly_withTryGate {busy poisoned : ε} {body : App ε α} (hF : T.Lasts F) (hl : .gate ∉ H)
    (hbody : Orderly T (.gate :: H) F body) :
    Orderly T H F (withTryLock .gate busy poisoned body) :=
  does_withTryGate hF (fun _ => hF) hl hbody

/-! ## Sessions -/

/-- INTERNAL: `revoke`. -/
theorem orderly_revoke (hF : T.Lasts F) (hgate : .gate ∈ H) : Orderly T H F revoke := by
  have hs := hF.stable
  refine orderly_bind hs (orderly_plain hF.steady rfl) fun authority => ?_
  refine orderly_bind hs (orderly_okOr hs) fun generation => ?_
  refine orderly_bind hs (orderly_update hF hgate fun _ _ _ => trivial) fun _ => ?_
  refine orderly_bind hs (orderly_plain hF.steady rfl) fun backend => ?_
  refine orderly_bind hs (orderly_housekeeping hF hgate rfl) fun store => ?_
  split_ifs
  · exact orderly_throw hs
  · exact orderly_update hF hgate fun _ _ _ => trivial

/-- INTERNAL: `admit`. -/
theorem orderly_admission (hF : T.Lasts F) (hgate : .gate ∈ H) : Orderly T H F admission := by
  have hs := hF.stable
  refine orderly_bind hs (orderly_plain hF.steady rfl) fun closing => ?_
  split_ifs
  · exact orderly_bind hs (orderly_revoke hF hgate) fun _ => orderly_throw hs
  · refine orderly_bind hs (orderly_plain hF.steady rfl) fun authority => ?_
    refine orderly_bind hs (orderly_okOr hs) fun deadline => ?_
    refine orderly_bind hs (orderly_plain hF.steady rfl) fun now => ?_
    split_ifs
    · exact orderly_pure hs
    · exact orderly_bind hs (orderly_revoke hF hgate) fun _ => orderly_throw hs

/-! ## Mutexes without a scope -/

/-- INTERNAL: a mutex is given back. -/
theorem spec_release {l : Lock} {R : Shared → Prop} (hF : T.Lasts F) (hl : l ∉ H) :
    Spec T.discipline T.number (Held T.number (l :: H) F) (act (.release l) : App ε Unit)
      (fun _ => Held T.number H F) R := by
  refine spec_act (Thread.held_stable hF.stable) (fun _ => Thread.held_stable hF.stable)
    (fun m _ hm => hm.locks l (List.mem_cons_self ..)) ?_
  intro m input answer m₁ hinv hm hperform hinv₁ hgrows
  exact ⟨holds_performAct H (.release l) hl hperform fun l' hl' =>
    hm.locks l' (List.mem_cons_of_mem _ hl'), hF m m₁ hgrows hinv₁ hm.fact⟩

theorem spec_within {l : Lock} {x : App ε α} (h : Orderly T (l :: H) F x) :
    Spec T.discipline T.number (Held T.number (l :: H) F) x
      (fun _ => Held T.number (l :: H) F) (Held T.number H F) :=
  Spec.conseq h (fun _ _ hm => hm) (fun _ _ _ hm => hm) fun _ _ hm =>
    ⟨fun l' hl' => hm.locks l' (List.mem_cons_of_mem _ hl'), hm.fact⟩

/-- INTERNAL: a mutex is taken, or the program fails. -/
theorem spec_taken {l : Lock} {e : ε} {k : Unit → App ε α} {Q : α → Shared → Prop} (hF : T.Lasts F)
    (hk : Spec T.discipline T.number (Held T.number (l :: H) F) (k ()) Q (Held T.number H F)) :
    Spec T.discipline T.number (Held T.number H F)
      (act (.acquire l none) >>= fun ok => if (!ok) = true then throw e >>= k else k ()) Q
      (Held T.number H F) :=
  spec_acquire hF.stable hF.stable (hF.kept _) (fun m _ m₁ _ hm _ hinv₁ hgrows =>
      hF m m₁ hgrows hinv₁ hm.fact) (Thread.held_stable hF.stable) hk
    (Spec.throw (Thread.held_stable hF.stable) fun _ _ hm => hm)

/-- INTERNAL: a mutex that is taken by force and given back. -/
theorem orderly_closeAdmission (hF : T.Lasts F) (hrelease : .releaseGate ∉ H) :
    Orderly T H F (closeAdmission : App ε Unit) := by
  have hstable : ∀ H, T.Stable (Held T.number H F) := fun H => Thread.held_stable hF.stable
  refine Spec.bind (Q := fun _ => Held T.number (.releaseGate :: H) F) (hstable H)
    (spec_act (hstable H) (fun _ => hstable _) (fun _ _ _ => trivial) ?_) fun _ => ?_
  · intro m input answer m₁ hinv hm hperform hinv₁ hgrows
    refine ⟨fun l hl => ?_, hF m m₁ hgrows hinv₁ hm.fact⟩
    rcases List.mem_cons.mp hl with rfl | hl
    · simp only [performAct] at hperform
      split_ifs at hperform
      rw [← (Prod.mk.inj (Option.some.inj hperform)).2]
      simp [Holds, Shared.take]
    · exact holds_performAct H (.force .releaseGate) trivial hperform hm.locks l hl
  · refine Spec.bind (hstable H) (spec_within (orderly_gated hF (List.mem_cons_self ..)
      (Or.inr rfl) trivial fun _ hm _ => hm)) fun _ => ?_
    exact spec_release hF hrelease

/-- INTERNAL: the wait gives the table up and takes it again. -/
theorem spec_waitReaped {e : ε} {ids : Option (List String)} (hF : T.Lasts F)
    (hl : .executions ∉ H) :
    Spec T.discipline T.number (Held T.number (.executions :: H) F) (waitReaped e ids)
      (fun _ => Held T.number (.executions :: H) F) (Held T.number H F) := by
  have hstable : ∀ H, T.Stable (Held T.number H F) := fun H => Thread.held_stable hF.stable
  refine Spec.bind (hstable H) (spec_release hF hl) fun _ => ?_
  refine Spec.bind (Q := fun answer m => match answer with
    | some _ => Held T.number (.executions :: H) F m
    | none => Held T.number H F m) (hstable H) (spec_act (hstable H) ?_ (fun _ _ _ => trivial) ?_)
    fun answer => ?_
  · intro answer
    cases answer with
    | some timedOut => exact hstable (.executions :: H)
    | none => exact hstable H
  · intro m input answer m₁ hinv hm hperform hinv₁ hgrows
    have hfact := hF m m₁ hgrows hinv₁ hm.fact
    have hlocks := holds_performAct H (.reacquire ids) trivial hperform hm.locks
    simp only [performAct] at hperform
    split_ifs at hperform
    · rw [← (Prod.mk.inj (Option.some.inj hperform)).1]
      exact ⟨hlocks, hfact⟩
    · rw [← (Prod.mk.inj (Option.some.inj hperform)).1]
      refine ⟨fun l hl => ?_, hfact⟩
      rcases List.mem_cons.mp hl with rfl | hl
      · rw [← (Prod.mk.inj (Option.some.inj hperform)).2]
        simp [Holds, Shared.take]
      · exact hlocks l hl
  · cases answer with
    | some timedOut => exact Spec.pure (hstable _) fun _ _ hm => hm
    | none => exact Spec.throw (hstable _) fun _ _ hm => hm

/-! ## Locking -/

/-- INTERNAL: `await_cleanup`. -/
theorem orderly_awaitCleanup (ids : Option (List String)) (hF : T.Lasts F)
    (hrelease : .releaseGate ∉ H) (hexecutions : .executions ∉ H) :
    Orderly T H F (awaitCleanup ids) := by
  have hs : T.Stable (Held T.number H F) := Thread.held_stable hF.stable
  refine spec_taken hF ?_
  refine Spec.bind hs (spec_within (orderly_plain hF.steady rfl)) fun active => ?_
  refine Spec.choose hs (fun _ => spec_waitReaped hF hexecutions)
    (fun _ => spec_within (orderly_pure hF.stable)) fun timedOut => ?_
  refine Spec.bind hs (spec_within (orderly_plain hF.steady rfl)) fun active => ?_
  refine Spec.choose hs (fun _ => spec_within (orderly_pure hF.stable))
    (fun _ => spec_within (orderly_plain hF.steady rfl)) fun uncertain => ?_
  refine Spec.bind hs (spec_release hF hexecutions) fun _ => ?_
  split_ifs
  · exact orderly_bind hF.stable (orderly_closeAdmission hF hrelease) fun _ => orderly_throw hF.stable
  · exact orderly_pure hF.stable

/-- INTERNAL: `lock`. -/
theorem orderly_lock (hF : T.Lasts F) : Orderly T [] F Application.lock := by
  have hs := hF.stable
  refine orderly_bind hs (orderly_withLock hF.steady (by simp) (by simp)
    (orderly_gated hF (List.mem_singleton.mpr rfl) (Or.inr rfl) trivial fun _ hm _ => hm))
    fun _ => ?_
  refine orderly_bind hs (orderly_withGate hF (by simp)
    (orderly_attempt hs (orderly_revoke hF (List.mem_singleton.mpr rfl)))) fun result => ?_
  refine orderly_bind hs (orderly_awaitCleanup none hF (by simp) (by simp)) fun _ => ?_
  exact orderly_ofExcept _ hs

theorem orderly_shutdown (hF : T.Lasts F) : Orderly T [] F shutdown :=
  orderly_bind hF.stable (orderly_closeAdmission hF (by simp)) fun _ => orderly_lock hF

/-- INTERNAL: `expire_requests`. -/
theorem orderly_expireRequests (hF : T.Lasts F) (hgate : .gate ∈ H) :
    Orderly T H F expireRequests := by
  have hs := hF.stable
  refine orderly_bind hs (orderly_plain hF.steady rfl) fun now => ?_
  refine orderly_bind hs (orderly_plain hF.steady rfl) fun authority => ?_
  refine orderly_bind hs (orderly_housekeeping hF hgate rfl) fun expiry => ?_
  split_ifs
  · exact orderly_update hF hgate fun _ _ _ => trivial
  · exact orderly_throw hs

/-! ## Opening a session -/

/-- The epoch may be the one of a new session. -/
def Opens (t epoch : ℕ) (m : Shared) : Prop :=
  (Holds t .gate m ∧ m.authority.sessionEpoch ≤ epoch) ∧ epoch ≤ m.revocationEpoch

theorem steady_opens (epoch : ℕ) : T.Steady (Opens T.number epoch) :=
  (steady_gate (T := T) (P := fun a _ _ => a.sessionEpoch ≤ epoch)).and
    (Thread.Lasts.steady fun _ _ hgrows _ hm => hm.trans hgrows.epoch)

theorem orderly_revokeThrow {e : SessionError} (hF : T.Lasts F) (hgate : .gate ∈ H) :
    Orderly T H F (do revoke; throw e : App SessionError Unit) :=
  orderly_bind hF.stable (orderly_revoke hF hgate) fun _ => orderly_throw hF.stable

/-- INTERNAL: the rest of `authenticate`, while the epoch is fit for the session. -/
theorem does_openSession (started epoch lifetime : ℕ) (hF : T.Lasts F) (hgate : .gate ∈ H) :
    Does T H (fun m => F m ∧ Opens T.number epoch m) (openSession started epoch lifetime)
      (fun _ => F) F := by
  have hopens := hF.steady.and (steady_opens (T := T) epoch)
  have hrevoke : ∀ e, Does T H (fun m => F m ∧ Opens T.number epoch m)
      (do revoke; throw e : App SessionError Unit) (fun _ => F) F := fun e =>
    does_conseq (orderly_revokeThrow hF hgate) (fun _ _ hm => hm.1) (fun _ _ _ hm => hm)
      fun _ _ hm => hm
  have hdecide : ∀ late deadline, Does T H (fun m => F m ∧ Opens T.number epoch m)
      (if late = true then do revoke; throw .locked
        else act (.update (.unlocked deadline epoch)) : App SessionError Unit)
      (fun _ => F) F := by
    intro late deadline
    split_ifs
    · exact hrevoke .locked
    · refine does_act trivial hopens.stable (fun _ => hF.stable) (fun m _ hm =>
        ⟨hm.locks .gate hgate, hm.fact.2.1.2, hm.fact.2.2⟩) ?_
      exact fun m _ _ m₁ _ hm _ hinv₁ hgrows => hF m m₁ hgrows hinv₁ hm.fact.1
  unfold openSession
  split
  · exact hrevoke .authenticationFailed
  · refine does_bind hF.stable (does_plain hopens rfl) fun closing => ?_
    split_ifs
    · exact does_bind hF.stable (does_pure hopens.stable fun _ _ hm => hm) fun late =>
        hdecide late _
    · refine does_bind hF.stable (does_plain hopens rfl) fun now => ?_
      exact does_bind hF.stable (does_pure hopens.stable fun _ _ hm => hm) fun late =>
        hdecide late _

/-- INTERNAL: `authenticate`. -/
theorem orderly_authenticate (hF : T.Lasts F) : Orderly T [] F authenticate := by
  have hs := hF.stable
  have hgate : Lock.gate ∈ [Lock.gate] := List.mem_singleton.mpr rfl
  refine orderly_withGate hF (by simp) ?_
  refine orderly_bind hs (orderly_plain hF.steady rfl) fun closing => ?_
  refine orderly_guard hs fun _ => ?_
  refine orderly_bind hs (orderly_plain hF.steady rfl) fun authority => ?_
  refine orderly_guard hs fun _ => ?_
  refine orderly_bind hs (orderly_revoke hF hgate) fun _ => ?_
  refine orderly_bind hs (orderly_plain hF.steady rfl) fun started => ?_
  have hepoch : Does T [.gate] F (act .loadEpoch : App SessionError ℕ)
      (fun epoch m => F m ∧ Opens T.number epoch m) F := by
    refine does_act trivial hs (fun epoch => (hF.steady.and (steady_opens epoch)).stable)
      (fun _ _ _ => trivial) ?_
    intro m input epoch m₁ hinv hm hperform hinv₁ hgrows
    obtain ⟨hepoch, rfl⟩ := Prod.mk.inj (Option.some.inj hperform)
    rw [← hepoch]
    exact ⟨hm.fact, ⟨hm.locks .gate hgate, hinv.session⟩, Nat.le_refl _⟩
  refine does_bind hs hepoch fun epoch => ?_
  have hopens := hF.steady.and (steady_opens (T := T) epoch)
  have hrevoke : ∀ e, Does T [.gate] (fun m => F m ∧ Opens T.number epoch m)
      (do revoke; throw e : App SessionError Unit) (fun _ => F) F := fun e =>
    does_conseq (orderly_revokeThrow hF hgate) (fun _ _ hm => hm.1) (fun _ _ _ hm => hm)
      fun _ _ hm => hm
  have hopen : ∀ attempt : Except SessionError ℕ, Does T [.gate]
      (fun m => F m ∧ Opens T.number epoch m)
      (match attempt with
        | .ok lifetime =>
          if lifetime ≠ 0 then openSession started epoch lifetime
          else do revoke; throw .authenticationFailed
        | .error e => do revoke; throw e) (fun _ => F) F := by
    intro attempt
    cases attempt with
    | error e => exact hrevoke e
    | ok lifetime =>
      simp only
      split_ifs
      · exact does_openSession started epoch lifetime hF hgate
      · exact hrevoke .authenticationFailed
  refine does_bind hs (does_plain hopens rfl) fun probe => ?_
  cases probe with
  | ok u => exact does_bind hs (does_plain hopens rfl) hopen
  | error e => exact does_bind hs (does_pure hopens.stable fun _ _ hm => hm) hopen

/-- INTERNAL: `management_retire`. -/
theorem orderly_managementRetire (generation epoch deadline : ℕ) (hF : T.Lasts F) :
    Orderly T [] F (managementRetire generation epoch deadline) := by
  have hs := hF.stable
  have hgate : Lock.gate ∈ [Lock.gate] := List.mem_singleton.mpr rfl
  refine orderly_bind hs (orderly_withTryGate hF (by simp) ?_) fun result => ?_
  · refine orderly_bind hs (orderly_plain hF.steady rfl) fun authority => ?_
    refine orderly_guard hs fun _ => ?_
    refine orderly_bind hs (orderly_plain hF.steady rfl) fun now => ?_
    refine orderly_guard hs fun _ => ?_
    refine orderly_bind hs (orderly_withLock hF.steady (by simp) (by simp) ?_) fun _ =>
      orderly_attempt hs (orderly_revoke hF hgate)
    refine orderly_bind hs (orderly_plain hF.steady rfl) fun current => ?_
    refine orderly_guard hs fun _ => ?_
    refine orderly_bind hs (orderly_plain hF.steady rfl) fun now => ?_
    refine orderly_guard hs fun _ => ?_
    exact orderly_gated hF (List.mem_cons_self ..) (Or.inr rfl) trivial fun _ hm _ => hm
  · refine orderly_bind hs (orderly_attempt hs (orderly_awaitCleanup none hF (by simp) (by simp)))
      fun cleanup => ?_
    exact orderly_pure hs

end Orderly

end VaultAccess.Analysis
