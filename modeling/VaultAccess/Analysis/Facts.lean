import VaultAccess.Analysis.Rules

/-!
# What threads know

Facts about the history of the process that last: that a thread's call is its own, that
its message is new, that it captured an epoch before it began to claim. And facts that
last while the thread holds the gate.
-/

set_option autoImplicit false

namespace VaultAccess.Analysis

open VaultAccess.Library VaultAccess.Model

section Facts

variable {T : Thread} {t : ℕ}

/-- The call of the thread is noted. -/
def Own (t : ℕ) (m : Shared) : Prop := ∃ call seen, (t, Mark.began call seen) ∈ m.log

/-- The call of the thread is not about a message that was admitted before. -/
def Fresh (t : ℕ) (m : Shared) : Prop :=
  Own t m ∧ ∀ call, (t, Mark.began call true) ∉ m.log

/-- If the message of the thread's call was admitted before, it is this one. -/
def Known (t : ℕ) (pair : String × String) (m : Shared) : Prop :=
  Own t m ∧ ∀ call, (t, Mark.began call true) ∈ m.log → pair ∈ m.admitted

/-- The thread did not begin late, unless a call found the window. -/
def Timely (t : ℕ) (m : Shared) : Prop := Own t m ∧ InTime t m.log

/-- The thread captured the epoch; if it began late, the session is of an earlier one. -/
def Captured (t epoch : ℕ) (m : Shared) : Prop :=
  Own t m ∧ epoch ≤ m.revocationEpoch ∧ (Late t m.log → m.authority.sessionEpoch < epoch)

/-- No admission is possible as long as the authority is not changed. -/
def Shut (m : Shared) : Prop :=
  m.closing = true ∨ m.authority.cleanupFailed = true ∨ ∀ d ∈ m.authority.deadline, d ≤ m.clock

/-- The flag exists. -/
def Flag (cell : ℕ) (m : Shared) : Prop := cell < m.flags.length

/-! ## Facts that last -/

/-- INTERNAL: a thread begins once. -/
theorem not_began_later {E : Externals} {m m₁ : Shared} (hinv : Inv E m₁)
    {new : List (ℕ × Mark)} (hlog : m₁.log = m.log ++ new) (hown : Own t m) (call : Call)
    (seen : Bool) : (t, Mark.began call seen) ∉ new := by
  intro hmem
  obtain ⟨a, b, rfl⟩ := List.append_of_mem hmem
  obtain ⟨call', seen', hbegan⟩ := hown
  have hmark := hinv.history (m.log ++ a) (t, .began call seen) b (by rw [hlog, List.append_assoc])
  exact hmark _ (List.mem_append_left _ hbegan) rfl

/-- INTERNAL: the calls of a thread that began. -/
theorem began_of_grows {E : Externals} {m m₁ : Shared} (hgrows : Grows m m₁) (hinv : Inv E m₁)
    (hown : Own t m) {call : Call} {seen : Bool} (h : (t, Mark.began call seen) ∈ m₁.log) :
    (t, Mark.began call seen) ∈ m.log := by
  obtain ⟨new, hlog, -⟩ := hgrows.history
  rw [hlog] at h
  exact (List.mem_append.mp h).resolve_right (not_began_later hinv hlog hown call seen)

/-- INTERNAL: **a thread that began does not become late, and stays late until a session opens.** -/
theorem late_of_grows {E : Externals} {m m₁ : Shared} (hinv : Inv E m₁)
    {new : List (ℕ × Mark)} (hlog : m₁.log = m.log ++ new) (hown : Own t m)
    (h : Late t m₁.log) : Late t m.log ∧ NoAuth new := by
  obtain ⟨before, u, epoch, after, heq, hno, call, seen, hbegan⟩ := h
  rw [hlog] at heq
  have hnew := not_began_later hinv hlog hown call seen
  rcases List.append_eq_append_iff.mp heq with ⟨a, -, hright⟩ | ⟨c, hleft, hright⟩
  · exact absurd (by rw [hright]; simp [hbegan]) hnew
  · cases c with
    | nil => exact absurd (by rw [← List.nil_append new, ← hright]; simp [hbegan]) hnew
    | cons x c =>
      obtain ⟨rfl, rfl⟩ := List.cons.inj hright
      refine ⟨⟨before, u, epoch, c, hleft, fun v hv => hno v (List.mem_append_left _ hv), call, seen,
        (List.mem_append.mp hbegan).resolve_right hnew⟩, fun v hv => hno v ?_⟩
      exact List.mem_append_right _ hv

theorem lasts_own : T.Lasts (Own t) := by
  rintro m m₁ hgrows - ⟨call, seen, h⟩
  exact ⟨call, seen, hgrows.mem h⟩

theorem lasts_fresh : T.Lasts (Fresh t) := fun m m₁ hgrows hinv hm =>
  ⟨lasts_own m m₁ hgrows hinv hm.1, fun call h => hm.2 call (began_of_grows hgrows hinv hm.1 h)⟩

theorem lasts_known (pair : String × String) : T.Lasts (Known t pair) := fun m m₁ hgrows hinv hm =>
  ⟨lasts_own m m₁ hgrows hinv hm.1, fun call h =>
    hgrows.admitted pair (hm.2 call (began_of_grows hgrows hinv hm.1 h))⟩

/-- INTERNAL: a thread in time stays in time. -/
theorem lasts_timely : T.Lasts (Timely t) := by
  intro m m₁ hgrows hinv hm
  obtain ⟨new, hlog, -⟩ := hgrows.history
  refine ⟨lasts_own m m₁ hgrows hinv hm.1, fun hwindow hlate => ?_⟩
  refine hm.2 (fun x hx => hwindow x (hgrows.mem hx)) ?_
  exact (late_of_grows hinv hlog hm.1 hlate).1

/-- INTERNAL: a captured epoch stays captured. -/
theorem lasts_captured (epoch : ℕ) : T.Lasts (Captured t epoch) := by
  intro m m₁ hgrows hinv hm
  obtain ⟨new, hlog, hsession⟩ := hgrows.history
  refine ⟨lasts_own m m₁ hgrows hinv hm.1, hm.2.1.trans hgrows.epoch, fun hlate => ?_⟩
  obtain ⟨hlate, hno⟩ := late_of_grows hinv hlog hm.1 hlate
  rw [hsession hno]
  exact hm.2.2 hlate

theorem lasts_flag (cell : ℕ) : T.Lasts (Flag cell) :=
  fun _ _ hgrows _ hm => hm.trans_le hgrows.length

theorem lasts_passed (epoch : ℕ) : T.Lasts fun m => epoch < m.revocationEpoch :=
  fun _ _ hgrows _ hm => hm.trans_le hgrows.epoch

theorem lasts_claimed (id : String) : T.Lasts fun m => Claimed id m.authority.store :=
  fun _ _ hgrows _ hm => hm.grows hgrows.store

theorem lasts_mark (x : ℕ × Mark) : T.Lasts fun m => x ∈ m.log :=
  fun _ _ hgrows _ hm => hgrows.mem hm

theorem lasts_const (p : Prop) : T.Lasts fun _ => p := fun _ _ _ _ h => h

/-! ## Facts that last while the gate is held -/

/-- INTERNAL: **a calm action leaves the authority, the tokens and what was created, and grows.** -/
theorem calm_performAct {E : Externals} {ownerUid : UInt32} {a : Act} {input : Input}
    {answer : Ans a} {m m₁ : Shared} (h : calm a = true)
    (hperform : performAct E ownerUid t a input m = some (answer, m₁)) :
    m₁.authority = m.authority ∧ m₁.agentTokens = m.agentTokens ∧ m₁.created = m.created := by
  cases a with
  | update | provider | insertToken | createSecret => simp [calm] at h
  | acquire | tryAcquire | force | reacquire | release =>
    simp only [performAct] at hperform
    split_ifs at hperform
    all_goals
      rw [← (Prod.mk.inj (Option.some.inj hperform)).2]
      exact ⟨rfl, rfl, rfl⟩
  | stall => simp [performAct] at hperform
  | loadClosing | storeClosing | loadEpoch | publishEpoch | loadUncertain | storeUncertain
  | newFlag | loadFlag | setFlag | now | unixSeconds | readAuthority | readState | backend
  | eligible | resolve | unlock | port | lookupToken | lookupExecution | listExecutions | register
  | removeExecution | supervise | handOver | returnsCancelled | returnsAnswer =>
    rw [← (Prod.mk.inj (Option.some.inj hperform)).2]
    exact ⟨rfl, rfl, rfl⟩

/-- INTERNAL: **what is known of the authority, the tokens and what was created is steady while the
gate is held.** -/
theorem steady_gate {P : Authority → List (String × ℕ) → List (String × Option WriteReceipt) → Prop} :
    T.Steady fun m => Holds T.number .gate m ∧ P m.authority m.agentTokens m.created := by
  refine ⟨fun m m₁ hrely _ hm => ?_, fun a ha input answer m m₁ _ hm hperform _ _ => ?_⟩
  · obtain ⟨hauthority, hcreated, htokens⟩ := hrely.gate hm.1
    exact ⟨(hrely.holder .gate).mpr hm.1, by rw [hauthority, hcreated, htokens]; exact hm.2⟩
  · obtain ⟨hauthority, htokens, hcreated⟩ := calm_performAct ha hperform
    refine ⟨?_, by rw [hauthority, hcreated, htokens]; exact hm.2⟩
    have hkeeps : keepsLocks [.gate] a := by
      cases a with
      | release l => cases l <;> simp_all [calm, keepsLocks]
      | _ => trivial
    exact holds_performAct [.gate] a hkeeps hperform (by simpa using hm.1) .gate (by simp)

end Facts

end VaultAccess.Analysis
