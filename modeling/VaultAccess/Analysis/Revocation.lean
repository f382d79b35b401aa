import VaultAccess.Analysis.Reachable
import VaultAccess.Analysis.Rehearsal

/-!
# Revocations and the hand-over of secrets

What the invariant of the memory says about the marks of a history: when secrets are handed
over, and when approvals are used after a lock was published.
-/

set_option autoImplicit false

namespace VaultAccess.Analysis

open VaultAccess.Library VaultAccess.Model VaultAccess.Model.Application

/-! ## The hand-over -/

/-- An action that hands secrets over is not covered by a revocation. -/
def ReleasesUncovered (before : List (ℕ × Mark)) : ℕ × Mark → Prop
  | (t, .handedOver e _) => Uncovered before t e
  | _ => True

/-- The hand-over happens before the deadlines, by the clock of that moment. -/
def ReleasesInTime : ℕ × Mark → Prop
  | (_, .handedOver e now) => now < e.deadline
  | _ => True

/-- **Secrets are never released under a published revocation.** In every interleaving the action
that hands secrets over comes before the flag of its execution is set, before the token of its agent
is set, before `closing` is set, and while no epoch beyond the one the execution captured is
published; the last thing its thread did before was to read the clock under both gates, and the
reading was below the earlier of the request's and the session's deadline at its registration.
SRCLINE: application.rs:91-149 -/
theorem secrets_released_uncovered (E : Externals) (ownerUid : UInt32) (requestLifetime : ℕ)
    (events : List (SystemEvent Input ℕ Restart Call)) :
    Each ReleasesUncovered (runSystem E ownerUid requestLifetime events).mem.log := by
  intro before entry after heq
  have hmark := (runSystem_inv E ownerUid requestLifetime events).history before entry after heq
  obtain ⟨t, mark⟩ := entry
  cases mark with
  | handedOver e now => exact hmark.1
  | began | entered | published | closed | set | authenticated | read | operated | looked
  | registered | cancelled | answered => trivial

/-- The clock may pass the deadline after it was read, so at the moment of the hand-over itself the
deadline may be over.
SRCLINE: application.rs:91-149 -/
theorem release_after_deadline :
    ¬ ∀ (E : Externals) (ownerUid : UInt32) (requestLifetime : ℕ)
      (events : List (SystemEvent Input ℕ Restart Call)),
      Each (fun before entry => ReleasesUncovered before entry ∧ ReleasesInTime entry)
        (runSystem E ownerUid requestLifetime events).mem.log := by
  intro hclaim
  let E := Sample.externals
  obtain ⟨events, log, hmem, hlog⟩ := (Sample.reached_ready E 0).1
  have hcomes : Comes ⟨E, 1000, 0, 3⟩ false [] (Sample.ready E) (runExecution E 1000 1000
      Sample.requestId) _ _ _ :=
    comes_runExecution_handOver Sample.env (Sample.executable_ready E) rfl rfl (Sample.call_claim E).1
      (Sample.delivers_claimed E) rfl rfl rfl
  obtain ⟨events', new, q, -, ⟨next, rfl⟩, hrun⟩ := run_goes (.runExecution 1000 Sample.requestId)
    (hmem.trans (held_nil 0 3 log _)) hlog (Goes.first hcomes)
  -- the clock passes the deadline, then the action is performed
  have hlast := congrArg Shared.log (run_performed 100 (good Sample.env)
    ((runSystem_append events events').trans hrun) rfl)
  have hover : 0 + 100 < min 50 100 := (hclaim E 1000 0 _ _ _ [] hlast).2
  exact absurd hover (by decide)

/-! ## Late calls -/

/-- An approval is claimed, and secrets are handed over, by a call that is not late. -/
def UsedInTime (before : List (ℕ × Mark)) : ℕ × Mark → Prop
  | (t, .handedOver _ _) => ¬ Late t before
  | (t, .operated op _ ok) => isClaim op = true → ok = true → ¬ Late t before
  | _ => True

/-- **Where no call finds the window, late calls claim nothing and release nothing.** In every run
in which no `run_execution` gets the gate with the current epoch while the session is admitted and
of an earlier epoch, every approval is claimed and every secret is handed over by a call that did
not begin after a publication without an authentication in between.
SRCLINE: application.rs:1386-1451, application.rs:251-268 -/
theorem late_calls_use_nothing (E : Externals) (ownerUid : UInt32) (requestLifetime : ℕ)
    (events : List (SystemEvent Input ℕ Restart Call))
    (h : NoWindow (runSystem E ownerUid requestLifetime events).mem.log) :
    Each UsedInTime (runSystem E ownerUid requestLifetime events).mem.log := by
  intro before entry after heq
  have hmark := (runSystem_inv E ownerUid requestLifetime events).history before entry after heq
  have hbefore : NoWindow before := fun x hx => h x (by rw [heq]; exact List.mem_append_left _ hx)
  obtain ⟨t, mark⟩ := entry
  cases mark with
  | handedOver e now => exact hmark.2 hbefore
  | operated op handed ok => exact fun hclaim hok => hmark.1 hclaim hok hbefore
  | began | entered | published | closed | set | authenticated | read | looked | registered
  | cancelled | answered => trivial

/-- A lock publishes its revocation; an execution that begins then gets the gate first. No session
is open. -/
def Sample.lateCall : List (SystemEvent Input ℕ Restart Call) :=
  .spawn 0 .lock :: List.replicate 3 (.run 0 (good Sample.env)) ++
    .spawn 1 (.runExecution 1000 Sample.requestId) :: List.replicate 3 (.run 1 (good Sample.env))

/-- The theorem at a run with a late call. -/
theorem late_calls_use_nothing_lateCall :
    Late 1 (runSystem Sample.externals 1000 0 Sample.lateCall).mem.log ∧
      Each UsedInTime (runSystem Sample.externals 1000 0 Sample.lateCall).mem.log := by
  have hlog : (runSystem Sample.externals 1000 0 Sample.lateCall).mem.log =
      [(0, .began .lock false), (0, .published 1),
        (1, .began (.runExecution 1000 Sample.requestId) false), (1, .entered 1 1 0 false)] := rfl
  constructor
  · rw [hlog]
    exact ⟨[_], 0, 1, _, rfl, fun u hu => by simp at hu, _, _, List.mem_cons_self⟩
  · refine late_calls_use_nothing Sample.externals 1000 0 Sample.lateCall fun x hx => ?_
    rw [hlog] at hx
    simp only [List.mem_cons, List.not_mem_nil, or_false] at hx
    rcases hx with rfl | rfl | rfl | rfl <;> rfl

/-- `run_execution` captures the current epoch itself: between the publication of a lock and the
moment the lock gets the gate, a new call claims an approval.
SRCLINE: application.rs:1386-1451 -/
theorem late_call_claims :
    ¬ ∀ (E : Externals) (ownerUid : UInt32) (requestLifetime : ℕ)
      (events : List (SystemEvent Input ℕ Restart Call)),
      Each UsedInTime (runSystem E ownerUid requestLifetime events).mem.log := by
  intro hclaim
  let E := Sample.externals
  obtain ⟨events, log, hmem, hlog⟩ := (Sample.reached_ready E 0).1
  -- thread 3 is a lock that has published its revocation and waits for the gate
  let m : Shared := { Sample.ready E with revocationEpoch := 2 }
  let log' := log ++ [(3, Mark.began .lock false)] ++ [(3, Mark.published 2)]
  obtain ⟨inputs, next, hpublish⟩ := @steps_publish ⟨E, 1000, 0, 3⟩ (Sample.ready E)
    Sample.env (log ++ [(3, .began .lock false)])
  have hlocking := run_steps .lock (hmem.trans (held_nil 0 3 log _)) hlog hpublish.bind
  have hlog' : ∀ x ∈ log', x.1 < 4 := by
    intro x hx
    simp only [log', List.mem_append, List.mem_singleton] at hx
    rcases hx with (hx | rfl) | rfl
    · exact Nat.lt_succ_of_lt (hlog x hx)
    · decide
    · decide
  -- thread 4 is a new execution, which gets the gate first
  have hready := Sample.executable_ready E
  have hexecutable : Executable m Sample.requestId 100 50 :=
    ⟨⟨hready.closing, hready.clean, hready.deadline, hready.clock⟩, hready.requestDeadline,
      hready.ahead, hready.agent⟩
  have hcomes : Comes ⟨E, 1000, 0, 4⟩ false [] m (runExecution E 1000 1000 Sample.requestId) _ _ _ :=
    comes_runExecution_claim Sample.env hexecutable rfl
  obtain ⟨events', new, q, hnew, ⟨next', rfl⟩, hrun⟩ := run_goes (.runExecution 1000 Sample.requestId)
    ((congrArg System.mem hlocking).trans (held_nil 3 4 log' m)) hlog' (Goes.first hcomes)
  have hlast := congrArg Shared.log (run_performed 0 (good Sample.env)
    ((runSystem_append events _).trans ((System.run_append _ _ _).trans hrun)) rfl)
  have hok : (Store.call E 1000 (Sample.ready E).authority.store (.claimExecution 1000 Sample.requestId)
      Sample.env .committed false).2.isOk = true := by
    rw [(Sample.call_claim E).1]
    rfl
  have hlate : Late 4 (log' ++ (4, .began (.runExecution 1000 Sample.requestId) false) :: new) := by
    refine ⟨log ++ [(3, .began .lock false)], 3, 2, _, List.append_assoc _ _ _, ?_, _, _,
      List.mem_cons_self⟩
    intro u hu
    rcases List.mem_cons.mp hu with heq | hu
    · simp at heq
    · exact (hnew _ hu).2 rfl rfl
  exact hclaim E 1000 0 _ _ _ [] hlast rfl hok hlate

end VaultAccess.Analysis
