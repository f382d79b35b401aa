import VaultAccess.Library.Past
import VaultAccess.Model.Lifecycle

/-!
# What the lifecycle counts as verified

A run of the companion's `Core` is a list of calls with any completions and any clock readings.
One lemma for each call says what it can do; the history of the run and the state it leads to
then keep one invariant, and the main theorem reads the four promises of the module off it.
-/

set_option autoImplicit false

namespace VaultAccess.Analysis.Companion.Lifecycle

open VaultAccess.Library VaultAccess.Model.Companion.Lifecycle

/-- A call of a run with the states around it. -/
abbrev Turn := Library.Entry Core Call Answer

/-! ## What each call can do -/

section Calls

variable {P : Packages} {core : Core} {operation : Operation} {clock : Clock}
  {random : Option (Vector UInt8 32)}

/-- INTERNAL: a selection is refused, or makes a review. -/
theorem select_cases (core : Core) (id : ℕ) (clock : Clock) :
    (∃ e, core.select id clock = (.error e, core)) ∨
    core.select id clock = (.ok (), { core.invalidate .selection with
      selected := id
      reviewed := some (deadlines clock)
      outcome := .ready }) := by
  unfold Core.select
  split
  · exact Or.inl ⟨_, rfl⟩
  · exact Or.inr rfl

/-- INTERNAL: what a signing work needs. -/
theorem canSign_spec (h : core.canSign clock = true) :
    core.unsafeObserved = false ∧ ∃ deadline wall, core.reviewed = some (deadline, wall) ∧
      clock.now < deadline ∧ clock.unixMs < wall := by
  simp only [Core.canSign, Bool.and_eq_true, Bool.not_eq_true', Option.any_eq_true] at h
  obtain ⟨⟨-, huns⟩, ⟨deadline, wall⟩, hreviewed, hnow, hwall⟩ := h
  exact ⟨huns, deadline, wall, hreviewed, of_decide_eq_true hnow, of_decide_eq_true hwall⟩

/-- INTERNAL: a refused start keeps the work, the counters and the key, and at most drops the
review. -/
def Refused (core next : Core) : Prop :=
  next.active = core.active ∧ next.verified = core.verified ∧
    next.unsafeObserved = core.unsafeObserved ∧ (next.reviewed = core.reviewed ∨ next.reviewed = none)

/-- What a start does: it needs an idle core, and for a signature a review it uses up. -/
structure Started (P : Packages) (core next : Core) (operation : Operation) (clock : Clock)
    (active : Active) : Prop where
  idle : core.active = none
  busy : next.active = some active
  verified : next.verified = core.verified
  unsafeObserved : next.unsafeObserved = core.unsafeObserved
  asked : active.work.operation = operation
  valid : active.invalidated = false
  own : transcript active.work = .ok active.transcript
  signing : operation.signing = true → core.canSign clock = true ∧
    core.reviewed = some (active.deadline, active.work.expiresUnixMs) ∧ next.reviewed = none
  other : operation.signing = false → next.reviewed = core.reviewed

/-- INTERNAL: a start is refused, or begins one work. -/
theorem begin_cases (P : Packages) (core : Core) (operation : Operation) (clock : Clock)
    (random : Option (Vector UInt8 32)) :
    (∃ e, (core.begin P operation clock random).1 = .error e ∧
      Refused core (core.begin P operation clock random).2) ∨
    ∃ active, (core.begin P operation clock random).1 = .ok active.work ∧
      Started P core (core.begin P operation clock random).2 operation clock active := by
  unfold Core.begin
  split
  · exact Or.inl ⟨_, rfl, rfl, rfl, rfl, Or.inl rfl⟩
  next hidle =>
  split
  · exact Or.inl ⟨_, rfl, rfl, rfl, rfl, Or.inl rfl⟩
  next hallowed =>
  split
  · exact Or.inl ⟨_, rfl, rfl, rfl, rfl, Or.inl rfl⟩
  split
  · exact Or.inl ⟨_, rfl, rfl, rfl, rfl, Or.inl rfl⟩
  have hnone : core.active = none := by simpa using hidle
  cases random with
  | none => exact Or.inl ⟨_, rfl, rfl, rfl, rfl, Or.inl rfl⟩
  | some nonce =>
    cases hsigning : operation.signing with
    | true =>
      have hcan : core.canSign clock = true := by simpa [hsigning] using hallowed
      obtain ⟨-, deadline, wall, hreviewed, -, -⟩ := canSign_spec hcan
      simp only [if_true, hreviewed]
      split
      · exact Or.inl ⟨_, rfl, rfl, rfl, rfl, Or.inr rfl⟩
      next data hdata =>
      refine Or.inr ⟨_, rfl, hnone, rfl, rfl, rfl, rfl, rfl, hdata, ?_, ?_⟩
      · intro _
        exact ⟨hcan, hreviewed, rfl⟩
      · intro hother
        exact absurd (hsigning.symm.trans hother) (by simp)
    | false =>
      simp only [Bool.false_eq_true, if_false]
      split
      · exact Or.inl ⟨_, rfl, rfl, rfl, rfl, Or.inl rfl⟩
      next data hdata =>
      refine Or.inr ⟨_, rfl, hnone, rfl, rfl, rfl, rfl, rfl, hdata, ?_, ?_⟩
      · intro hother
        exact absurd (hsigning.symm.trans hother) (by simp)
      · intro _
        rfl

/-- A completion that must never pass for a benign callback. -/
def Alarming (active : Active) (completion : Completion) : Prop :=
  completion.outcome = .unsafeSeen ∨
    active.work.operation = .noInteraction ∧ completion.signature ≠ []

/-- What makes a completion of a work count. -/
structure Counts (P : Packages) (core : Core) (active : Active) (completion : Completion)
    (clock : Clock) : Prop where
  operation : active.work.operation = .sign
  valid : active.invalidated = false
  epoch : active.work.epoch = core.epoch
  now : clock.now < active.deadline
  wall : clock.unixMs < active.work.expiresUnixMs
  verifies : core.verifies P active completion = true

/-- INTERNAL: a completion leaves the slot and the flag alone, drops the review at most, and raises
the counter only if it counts. -/
structure Completed (P : Packages) (core : Core) (active : Active) (completion : Completion)
    (clock : Clock) (result : Outcome × Core) : Prop where
  slot : result.2.active = core.active
  unsafeObserved : result.2.unsafeObserved = core.unsafeObserved
  reviewed : result.2.reviewed = core.reviewed ∨ result.2.reviewed = none
  alarm : Alarming active completion → result.1 = .unsafeSeen
  verified : core.verified < result.2.verified → Counts P core active completion clock

/-- INTERNAL: an answer that changes nothing, to a completion that does not alarm. -/
theorem Completed.same {active : Active} {completion : Completion} (outcome : Outcome)
    (h : ¬ Alarming active completion) :
    Completed P core active completion clock (outcome, core) where
  slot := rfl
  unsafeObserved := rfl
  reviewed := Or.inl rfl
  alarm := fun halarm => absurd halarm h
  verified := fun hlt => absurd hlt (Nat.lt_irrefl _)

/-- INTERNAL: an answer that changes the key, the blocked attempts or sets the counter back. -/
theorem Completed.quiet {active : Active} {completion : Completion} (outcome : Outcome) {next : Core}
    (h : ¬ Alarming active completion) (hactive : next.active = core.active)
    (huns : next.unsafeObserved = core.unsafeObserved)
    (hreviewed : next.reviewed = core.reviewed ∨ next.reviewed = none)
    (hverified : next.verified ≤ core.verified) :
    Completed P core active completion clock (outcome, next) where
  slot := hactive
  unsafeObserved := huns
  reviewed := hreviewed
  alarm := fun halarm => absurd halarm h
  verified := fun hlt => absurd hlt (Nat.not_lt.mpr hverified)

/-- **What a completion can do.** -/
theorem complete_spec (P : Packages) (core : Core) (active : Active) (completion : Completion)
    (clock : Clock) :
    Completed P core active completion clock (core.complete P active completion clock) := by
  unfold Core.complete
  simp only
  split
  · exact ⟨rfl, rfl, Or.inl rfl, fun _ => rfl, fun hlt => absurd hlt (Nat.lt_irrefl _)⟩
  next hreported =>
  split
  · exact ⟨rfl, rfl, Or.inl rfl, fun _ => rfl, fun hlt => absurd hlt (Nat.lt_irrefl _)⟩
  next hproduced =>
  have hcalm : ¬ Alarming active completion := by
    rintro (houtcome | hsignature)
    · exact hreported houtcome
    · exact hproduced hsignature
  split
  · exact Completed.same _ hcalm
  split
  · exact Completed.quiet _ hcalm rfl rfl (Or.inr rfl) (Nat.zero_le _)
  split
  · -- a key was created or opened again
    split
    · exact Completed.same _ hcalm
    split
    · exact Completed.same _ hcalm
    split
    · exact Completed.same _ hcalm
    cases decide (active.work.operation = .create) <;>
    split
    all_goals first
      | exact Completed.quiet _ hcalm rfl rfl (Or.inl rfl) (Nat.zero_le _)
      | exact Completed.quiet _ hcalm rfl rfl (Or.inl rfl) (Nat.le_refl _)
  split
  · exact Completed.same _ hcalm
  next hcurrent =>
  split
  · exact Completed.same _ hcalm
  next hdeadlines =>
  split
  · next hoperation houtcome =>
    split
    · next hverifies =>
      refine ⟨rfl, rfl, Or.inl rfl, fun halarm => absurd halarm hcalm, fun _ => ?_⟩
      obtain ⟨hvalid, hepoch⟩ := not_or.mp hcurrent
      obtain ⟨hnow, hwall⟩ := not_or.mp hdeadlines
      exact ⟨hoperation, by simpa using hvalid, not_not.mp hepoch, Nat.not_le.mp hnow,
        Nat.not_le.mp hwall, hverifies⟩
    · exact Completed.same _ hcalm
  · exact Completed.quiet _ hcalm rfl rfl (Or.inl rfl) (Nat.le_refl _)
  all_goals exact Completed.same _ hcalm

theorem matching_eq_some {token epoch : ℕ} {active : Active} :
    core.matching token epoch = some active ↔
      core.active = some active ∧ active.work.token = token ∧ active.work.epoch = epoch := by
  simp [Core.matching, Option.filter_eq_some_iff]

end Calls

/-! ## What a history says -/

/-- A selection that succeeded, and the deadlines of the review it made. -/
def Reviews (review : ℕ × ℕ) (turn : Turn) : Prop :=
  ∃ id clock, turn.call = .select id clock ∧ turn.answer = .selected (.ok ()) ∧
    review = deadlines clock

/-- A start that succeeded, and its work. -/
def Begins (work : Work) (turn : Turn) : Prop :=
  ∃ operation clock random, turn.call = .begin operation clock random ∧
    turn.answer = .begun (.ok work)

/-- The start of a work that signs. -/
def Signs (turn : Turn) : Prop :=
  ∃ work, Begins work turn ∧ work.operation.signing = true

/-- A call that makes the active work stale: `invalidate`, or a selection. -/
def Invalidates (turn : Turn) : Prop :=
  (∃ reason, turn.call = .invalidate reason) ∨ ∃ review, Reviews review turn

/-- The callback of the active work. -/
def Ends (work : Work) (turn : Turn) : Prop :=
  ∃ active completion clock, turn.before.active = some active ∧ active.work = work ∧
    turn.call = .finish work.token work.epoch completion clock

/-- The callback of the active work reports an unsafe outcome, or a signature that was produced
without interaction. -/
def Reports (turn : Turn) : Prop :=
  ∃ active completion clock, turn.before.active = some active ∧ Alarming active completion ∧
    turn.call = .finish active.work.token active.work.epoch completion clock

/-- The review was made, and no signing work has begun and nothing was selected or invalidated
since. -/
def Reviewed (review : ℕ × ℕ) (history : List Turn) : Prop :=
  Since (fun _ => Reviews review) (fun turn => ¬ Signs turn ∧ ¬ Invalidates turn) history

/-- The work began, from a review of its own when it signs, and no work has begun and none was
invalidated since. -/
def Current (active : Active) (history : List Turn) : Prop :=
  Since (fun earlier turn => Begins active.work turn ∧ (active.work.operation.signing = true →
      Reviewed (active.deadline, active.work.expiresUnixMs) earlier))
    (fun turn => (∀ work, ¬ Begins work turn) ∧ (active.invalidated = false → ¬ Invalidates turn))
    history

/-- The work began and its callback has not come since. -/
def Unended (work : Work) (history : List Turn) : Prop :=
  Since (fun _ => Begins work) (fun turn => ¬ Ends work turn) history

/-- **The invariant**: what the state says of the history that led to it. -/
structure Recorded (history : List Turn) (core : Core) : Prop where
  reviewed : ∀ review, core.reviewed = some review → Reviewed review history
  current : ∀ active, core.active = some active →
    Current active history ∧ transcript active.work = .ok active.transcript
  unended : ∀ work, Unended work history → ∃ active, core.active = some active ∧ active.work = work
  reported : ∀ turn ∈ history, Reports turn → core.unsafeObserved = true

section Steps

variable {P : Packages} {history : List Turn} {core next : Core} {turn : Turn}

/-- INTERNAL: an entry that is neither a start nor the callback of the active work, and
keeps the slot and the flag. -/
theorem Recorded.besides (h : Recorded history core) (hactive : next.active = core.active)
    (huns : next.unsafeObserved = core.unsafeObserved)
    (hreviewed : next.reviewed = core.reviewed ∨ next.reviewed = none)
    (hbegins : ∀ work, ¬ Begins work turn) (hinvalidates : ¬ Invalidates turn)
    (hreports : ¬ Reports turn) : Recorded (history ++ [turn]) next where
  reviewed := by
    intro review hreview
    rcases hreviewed with hsame | hnone
    · apply since_snoc.mpr
      refine Or.inr ⟨h.reviewed review (hsame ▸ hreview), ?_, hinvalidates⟩
      rintro ⟨work, hwork, -⟩
      exact hbegins work hwork
    · exact absurd (hnone ▸ hreview) (by simp)
  current := by
    intro active hsome
    obtain ⟨hcurrent, hown⟩ := h.current active (hactive ▸ hsome)
    exact ⟨since_snoc.mpr (Or.inr ⟨hcurrent, hbegins, fun _ => hinvalidates⟩), hown⟩
  unended := by
    intro work hunended
    rw [hactive]
    rcases since_snoc.mp hunended with hbegun | ⟨hold, -⟩
    · exact absurd hbegun (hbegins work)
    · exact h.unended work hold
  reported := by
    intro earlier hearlier hreport
    rw [huns]
    rcases List.mem_append.mp hearlier with hold | hnew
    · exact h.reported earlier hold hreport
    · exact absurd (List.mem_singleton.mp hnew ▸ hreport) hreports

/-- INTERNAL: an entry that makes the active work stale. -/
theorem Recorded.invalidated (h : Recorded history core) (reason : Invalidation)
    (hactive : next.active = (core.invalidate reason).active)
    (huns : next.unsafeObserved = core.unsafeObserved)
    (hreviewed : ∀ review, next.reviewed = some review → Reviews review turn)
    (hbegins : ∀ work, ¬ Begins work turn) (hreports : ¬ Reports turn) :
    Recorded (history ++ [turn]) next where
  reviewed := by
    intro review hreview
    exact since_snoc.mpr (Or.inl (hreviewed review hreview))
  current := by
    intro active hsome
    rw [hactive] at hsome
    obtain ⟨old, hold, rfl⟩ := Option.map_eq_some_iff.mp hsome
    obtain ⟨hcurrent, hown⟩ := h.current old hold
    refine ⟨since_snoc.mpr (Or.inr ⟨hcurrent.imp (fun _ _ hmarked => hmarked) ?_, hbegins, ?_⟩), hown⟩
    · intro x hx
      refine ⟨hx.1, fun hvalid => absurd hvalid (by simp)⟩
    · intro hvalid
      exact absurd hvalid (by simp)
  unended := by
    intro work hunended
    rcases since_snoc.mp hunended with hbegun | ⟨hold, -⟩
    · exact absurd hbegun (hbegins work)
    · obtain ⟨active, hsome, hwork⟩ := h.unended work hold
      exact ⟨{ active with invalidated := true }, by rw [hactive, Core.invalidate, hsome]; rfl, hwork⟩
  reported := by
    intro earlier hearlier hreport
    rw [huns]
    rcases List.mem_append.mp hearlier with hold | hnew
    · exact h.reported earlier hold hreport
    · exact absurd (List.mem_singleton.mp hnew ▸ hreport) hreports

/-- INTERNAL: an entry that begins a work. -/
theorem Recorded.begun (h : Recorded history core) {operation : Operation} {clock : Clock}
    {active : Active} (hstarted : Started P core next operation clock active)
    (hcall : ∃ random, turn.call = .begin operation clock random)
    (hanswer : turn.answer = .begun (.ok active.work)) : Recorded (history ++ [turn]) next := by
  obtain ⟨random, hcall⟩ := hcall
  have hbegins : Begins active.work turn := ⟨operation, clock, random, hcall, hanswer⟩
  have hinvalidates : ¬ Invalidates turn := by
    rintro (⟨reason, hreason⟩ | ⟨review, id, when', hselect, -⟩)
    · exact absurd (hcall.symm.trans hreason) (by simp)
    · exact absurd (hcall.symm.trans hselect) (by simp)
  constructor
  · intro review hreview
    apply since_snoc.mpr
    cases hsigning : operation.signing with
    | true =>
      rw [(hstarted.signing hsigning).2.2] at hreview
      exact absurd hreview (by simp)
    | false =>
      rw [hstarted.other hsigning] at hreview
      refine Or.inr ⟨h.reviewed review hreview, ?_, hinvalidates⟩
      rintro ⟨work, ⟨_, _, _, -, hwork⟩, hsigns⟩
      obtain rfl : active.work = work := by simpa using hanswer.symm.trans hwork
      rw [hstarted.asked, hsigning] at hsigns
      exact absurd hsigns (by simp)
  · intro now hnow
    obtain rfl : active = now := Option.some.inj (hstarted.busy.symm.trans hnow)
    refine ⟨since_snoc.mpr (Or.inl ⟨hbegins, fun hsigning => ?_⟩), hstarted.own⟩
    exact h.reviewed _ (hstarted.signing (hstarted.asked ▸ hsigning)).2.1
  · intro work hunended
    refine ⟨active, hstarted.busy, ?_⟩
    rcases since_snoc.mp hunended with ⟨_, _, _, -, hwork⟩ | ⟨hold, -⟩
    · simpa using hanswer.symm.trans hwork
    · obtain ⟨old, hsome, -⟩ := h.unended work hold
      exact absurd (hstarted.idle.symm.trans hsome) (by simp)
  · intro earlier hearlier hreport
    rw [hstarted.unsafeObserved]
    rcases List.mem_append.mp hearlier with hold | hnew
    · exact h.reported earlier hold hreport
    · obtain ⟨_, completion, when', -, -, hfinish⟩ := List.mem_singleton.mp hnew ▸ hreport
      exact absurd (hcall.symm.trans hfinish) (by simp)

/-- INTERNAL: the callback of the active work. -/
theorem Recorded.ended (h : Recorded history core) {active : Active} {completion : Completion}
    {clock : Clock} (hactive : core.active = some active) (hbefore : turn.before = core)
    (hcall : turn.call = .finish active.work.token active.work.epoch completion clock)
    (hnone : next.active = none)
    (hreviewed : next.reviewed = core.reviewed ∨ next.reviewed = none)
    (huns : core.unsafeObserved = true ∨ Alarming active completion → next.unsafeObserved = true) :
    Recorded (history ++ [turn]) next := by
  have hbegins : ∀ work, ¬ Begins work turn := by
    rintro work ⟨_, _, _, hbegin, -⟩
    exact absurd (hcall.symm.trans hbegin) (by simp)
  constructor
  · intro review hreview
    rcases hreviewed with hsame | hdropped
    · refine since_snoc.mpr (Or.inr ⟨h.reviewed review (hsame ▸ hreview), ?_, ?_⟩)
      · rintro ⟨work, hwork, -⟩
        exact hbegins work hwork
      · rintro (⟨reason, hreason⟩ | ⟨_, id, when', hselect, -⟩)
        · exact absurd (hcall.symm.trans hreason) (by simp)
        · exact absurd (hcall.symm.trans hselect) (by simp)
    · exact absurd (hdropped ▸ hreview) (by simp)
  · intro now hnow
    exact absurd (hnone.symm.trans hnow) (by simp)
  · intro work hunended
    rcases since_snoc.mp hunended with hbegun | ⟨hold, hends⟩
    · exact absurd hbegun (hbegins work)
    · obtain ⟨old, hsome, rfl⟩ := h.unended work hold
      obtain rfl : active = old := Option.some.inj (hactive.symm.trans hsome)
      exact absurd ⟨active, completion, clock, hbefore ▸ hactive, rfl, hcall⟩ hends
  · intro earlier hearlier hreport
    apply huns
    rcases List.mem_append.mp hearlier with hold | hnew
    · exact Or.inl (h.reported earlier hold hreport)
    · obtain ⟨now, reported, when', hnow, halarm, hfinish⟩ := List.mem_singleton.mp hnew ▸ hreport
      rw [hbefore, hactive] at hnow
      obtain rfl := Option.some.inj hnow
      rw [hcall] at hfinish
      simp only [Call.finish.injEq, true_and] at hfinish
      exact Or.inr (hfinish.1 ▸ halarm)

theorem not_reports (h : ∀ token epoch completion clock, turn.call ≠ .finish token epoch completion clock) :
    ¬ Reports turn := by
  rintro ⟨active, completion, clock, -, -, hfinish⟩
  exact h _ _ _ _ hfinish

/-- **One call keeps the record.** -/
theorem Recorded.step (h : Recorded history core) (call : Call) :
    Recorded (history ++ [entryAt (Core.step P) core call]) (Core.step P core call).2 := by
  cases call with
  | select id clock =>
    rcases select_cases core id clock with ⟨e, heq⟩ | heq
    · have hstep : Core.step P core (.select id clock) = (.selected (.error e), core) := by
        simp [Core.step, heq]
      apply h.besides (by rw [hstep]) (by rw [hstep]) (Or.inl (by rw [hstep]))
      · rintro work ⟨_, _, _, hbegin, -⟩
        exact absurd hbegin (by simp [entryAt])
      · rintro (⟨reason, hreason⟩ | ⟨review, _, _, -, hanswer, -⟩)
        · exact absurd hreason (by simp [entryAt])
        · exact absurd hanswer (by simp [entryAt, hstep])
      · exact not_reports (by simp [entryAt])
    · have hstep : Core.step P core (.select id clock) = (.selected (.ok ()),
          { core.invalidate .selection with
            selected := id
            reviewed := some (deadlines clock)
            outcome := .ready }) := by
        simp [Core.step, heq]
      apply h.invalidated .selection (by rw [hstep]) (by rw [hstep]; rfl)
      · intro review hreview
        rw [hstep] at hreview
        exact ⟨id, clock, rfl, by simp [entryAt, hstep], (Option.some.inj hreview).symm⟩
      · rintro work ⟨_, _, _, hbegin, -⟩
        exact absurd hbegin (by simp [entryAt])
      · exact not_reports (by simp [entryAt])
  | begin operation clock random =>
    have hsnd : (Core.step P core (.begin operation clock random)).2 =
        (core.begin P operation clock random).2 := rfl
    rcases begin_cases P core operation clock random with ⟨e, herror, hactive, -, huns, hreviewed⟩ |
      ⟨active, hok, hstarted⟩
    · rw [hsnd]
      apply h.besides hactive huns hreviewed
      · rintro work ⟨_, _, _, -, hanswer⟩
        exact absurd hanswer (by simp [entryAt, Core.step, herror])
      · rintro (⟨reason, hreason⟩ | ⟨review, _, _, hselect, -⟩)
        · exact absurd hreason (by simp [entryAt])
        · exact absurd hselect (by simp [entryAt])
      · exact not_reports (by simp [entryAt])
    · rw [hsnd]
      apply h.begun hstarted ⟨random, rfl⟩
      simp [entryAt, Core.step, hok]
  | invalidate reason =>
    apply h.invalidated reason rfl rfl
    · intro review hreview
      exact absurd hreview (by simp [Core.invalidate])
    · rintro work ⟨_, _, _, hbegin, -⟩
      exact absurd hbegin (by simp [entryAt])
    · exact not_reports (by simp [entryAt])
  | finish token epoch completion clock =>
    cases hmatching : core.matching token epoch with
    | none =>
      have hsame : (Core.step P core (.finish token epoch completion clock)).2 = core := by
        simp [Core.step, Core.finish, hmatching]
      apply h.besides (by rw [hsame]) (by rw [hsame]) (Or.inl (by rw [hsame]))
      · rintro work ⟨_, _, _, hbegin, -⟩
        exact absurd hbegin (by simp [entryAt])
      · rintro (⟨reason, hreason⟩ | ⟨review, _, _, hselect, -⟩)
        · exact absurd hreason (by simp [entryAt])
        · exact absurd hselect (by simp [entryAt])
      · rintro ⟨active, _, _, hactive, -, hfinish⟩
        simp only [entryAt, Call.finish.injEq] at hfinish
        have hmatched := matching_eq_some.mpr ⟨hactive, hfinish.1.symm, hfinish.2.1.symm⟩
        exact absurd (hmatching.symm.trans hmatched) (by simp)
    | some active =>
      obtain ⟨hactive, rfl, rfl⟩ := matching_eq_some.mp hmatching
      have hspec := complete_spec P { core with active := none } active completion clock
      have hfinish : (Core.step P core (.finish active.work.token active.work.epoch completion clock)).2 =
          { (Core.complete P { core with active := none } active completion clock).2 with
            outcome := (Core.complete P { core with active := none } active completion clock).1
            unsafeObserved :=
              (Core.complete P { core with active := none } active completion clock).2.unsafeObserved ||
                decide ((Core.complete P { core with active := none } active completion clock).1 =
                  .unsafeSeen) } := by
        simp only [Core.step, Core.finish, hmatching]
      rw [hfinish]
      refine h.ended hactive rfl rfl (by exact hspec.slot) (by exact hspec.reviewed) ?_
      rintro (hold | halarm)
      · exact Bool.or_eq_true_iff.mpr (Or.inl (hspec.unsafeObserved.trans hold))
      · exact Bool.or_eq_true_iff.mpr (Or.inr (decide_eq_true (hspec.alarm halarm)))

theorem recorded_default : Recorded [] Core.default where
  reviewed := fun review hreview => absurd hreview (by simp [Core.default])
  current := fun active hactive => absurd hactive (by simp [Core.default])
  unended := fun work hunended => absurd hunended not_since_nil
  reported := fun turn hturn => absurd hturn (by simp)

end Steps

/-! ## The main result -/

section Main

variable {P : Packages} {front : List Turn} {turn : Turn}

/-- What a turn that raises the verified counter is: the callback of the active work, which signs,
began from its own review, was never invalidated, is before both deadlines, and whose signature over
its own transcript verifies under the retained key. -/
def Verifies (P : Packages) (front : List Turn) (turn : Turn) : Prop :=
  ∃ active completion clock key data,
    turn.call = .finish active.work.token active.work.epoch completion clock ∧
    turn.before.active = some active ∧ active.work.operation = .sign ∧
    active.invalidated = false ∧ Current active front ∧
    clock.now < active.deadline ∧ clock.unixMs < active.work.expiresUnixMs ∧
    turn.before.key = some key ∧ P.fromSec1Bytes key = true ∧
    transcript active.work = .ok data ∧ P.fromDer completion.signature = true ∧
    P.verify key data completion.signature = true

/-- INTERNAL: only a callback raises the counter. -/
theorem finish_of_verified {core : Core} {call : Call}
    (h : core.verified < (Core.step P core call).2.verified) :
    ∃ active completion clock, core.active = some active ∧
      call = .finish active.work.token active.work.epoch completion clock ∧
      Counts P { core with active := none } active completion clock := by
  cases call with
  | select id clock =>
    rcases select_cases core id clock with ⟨e, heq⟩ | heq <;>
      exact absurd h (by simp [Core.step, heq, Core.invalidate])
  | begin operation clock random =>
    rcases begin_cases P core operation clock random with ⟨e, -, -, hverified, -⟩ | ⟨active, -, hstarted⟩
    · exact absurd h (Nat.not_lt.mpr hverified.le)
    · exact absurd h (Nat.not_lt.mpr hstarted.verified.le)
  | invalidate reason => exact absurd h (by simp [Core.step, Core.invalidate])
  | finish token epoch completion clock =>
    cases hmatching : core.matching token epoch with
    | none => exact absurd h (by simp [Core.step, Core.finish, hmatching])
    | some active =>
      obtain ⟨hactive, rfl, rfl⟩ := matching_eq_some.mp hmatching
      refine ⟨active, completion, clock, hactive, rfl, ?_⟩
      apply (complete_spec P { core with active := none } active completion clock).verified
      simpa only [Core.step, Core.finish, hmatching] using h

/-- INTERNAL: the counter grows only by a callback that verifies. -/
theorem verifies_of_recorded (hrecorded : Recorded front turn.before)
    (hturn : turn = entryAt (Core.step P) turn.before turn.call)
    (h : turn.before.verified < turn.after.verified) : Verifies P front turn := by
  rw [hturn] at h
  obtain ⟨active, completion, clock, hactive, hcall, hcounts⟩ := finish_of_verified h
  obtain ⟨hcurrent, hown⟩ := hrecorded.current active hactive
  have hverifies := hcounts.verifies
  simp only [Core.verifies, Bool.and_eq_true, Option.any_eq_true] at hverifies
  obtain ⟨-, key, hkey, ⟨hpoint, hder⟩, hsignature⟩ := hverifies
  exact ⟨active, completion, clock, key, active.transcript, hcall, hactive, hcounts.operation,
    hcounts.valid, hcurrent, hcounts.now, hcounts.wall, hkey, hpoint, hown, hder, hsignature⟩

/-- INTERNAL: a start that succeeded. -/
theorem started_of_begins {work : Work} (hturn : turn = entryAt (Core.step P) turn.before turn.call)
    (h : Begins work turn) :
    ∃ operation clock random active, turn.call = .begin operation clock random ∧ active.work = work ∧
      Started P turn.before turn.after operation clock active := by
  obtain ⟨operation, clock, random, hcall, hanswer⟩ := h
  rw [hcall] at hturn
  rw [hturn] at hanswer ⊢
  rcases begin_cases P turn.before operation clock random with ⟨e, herror, -⟩ | ⟨active, hok, hstarted⟩
  · exact absurd hanswer (by simp [entryAt, Core.step, herror])
  · refine ⟨operation, clock, random, active, rfl, ?_, hstarted⟩
    simpa [entryAt, Core.step, hok] using hanswer

/-- **The counter, the reviews, the slot and the flag.** In every run of the lifecycle, with any
completions and clock readings: the verified counter grows only by the callback of a signing work
that verifies; every signing work has a review of its own, which is neither used by an earlier one
nor invalidated nor past a deadline; no work begins before the callback of the one before it; and
after an unsafe outcome, or a signature produced without interaction, no signing work begins. -/
theorem verified_from_reviewed_work (P : Packages) (calls : List Call) :
    Each (fun front turn =>
      (turn.before.verified < turn.after.verified → Verifies P front turn) ∧
      (∀ work, Begins work turn → work.operation.signing = true →
        ∃ deadline operation clock random, Reviewed (deadline, work.expiresUnixMs) front ∧
          turn.call = .begin operation clock random ∧ clock.now < deadline ∧
          clock.unixMs < work.expiresUnixMs) ∧
      (∀ work earlier, Begins work turn → ¬ Unended earlier front) ∧
      ((∃ earlier ∈ front, Reports earlier) → ¬ Signs turn))
    (Core.run P calls) := by
  intro front turn back hrun
  obtain ⟨hturn, -⟩ := trace_split hrun
  have hrecorded : Recorded front turn.before := by
    have h := @trace_history _ _ _ _ Recorded (fun _ _ call h => h.step call) _ _ [] _ _ _ hrun recorded_default
    rwa [List.nil_append] at h
  refine ⟨verifies_of_recorded hrecorded hturn, ?_, ?_, ?_⟩
  · intro work hbegins hsigning
    obtain ⟨operation, clock, random, active, hcall, rfl, hstarted⟩ := started_of_begins hturn hbegins
    obtain ⟨hcan, hreviewed, -⟩ := hstarted.signing (hstarted.asked ▸ hsigning)
    obtain ⟨-, deadline, wall, hreview, hnow, hwall⟩ := canSign_spec hcan
    obtain ⟨rfl, rfl⟩ := Prod.mk.inj (Option.some.inj (hreviewed.symm.trans hreview))
    exact ⟨active.deadline, operation, clock, random, hrecorded.reviewed _ hreviewed, hcall, hnow, hwall⟩
  · intro work earlier hbegins hunended
    obtain ⟨operation, clock, random, active, -, -, hstarted⟩ := started_of_begins hturn hbegins
    obtain ⟨old, hold, -⟩ := hrecorded.unended earlier hunended
    exact absurd (hstarted.idle.symm.trans hold) (by simp)
  · rintro ⟨earlier, hearlier, hreports⟩ ⟨work, hbegins, hsigning⟩
    obtain ⟨operation, clock, random, active, -, rfl, hstarted⟩ := started_of_begins hturn hbegins
    obtain ⟨huns, -⟩ := canSign_spec (hstarted.signing (hstarted.asked ▸ hsigning)).1
    exact absurd ((hrecorded.reported earlier hearlier hreports).symm.trans huns) (by simp)

end Main

end VaultAccess.Analysis.Companion.Lifecycle
