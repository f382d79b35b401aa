import Mathlib.Data.List.Basic
import Mathlib.Data.List.Induction
import Mathlib.Order.Basic
import Mathlib.Tactic.SplitIfs
import VaultAccess.Model.AttemptLimit

/-!
# Five attempts a minute

A queue that is trimmed when its device makes an attempt holds exactly the admitted attempts
that are less than a minute old. So no minute admits more than five attempts of a device, a
refusal has five recent attempts of the same device behind it, and a device's answers are those
it would get alone.
-/

set_option autoImplicit false

namespace VaultAccess.Analysis.AttemptLimits

open VaultAccess.Model.AttemptLimit

/-! ## Queues -/

/-- An attempt at the time counts for one that is made now. -/
def recent (now time : ℕ) : Bool := decide (now - time < WINDOW)

/-- INTERNAL: in a queue in order the old attempts are at the front. -/
theorem trim_eq_filter {queue : List ℕ} (h : queue.Pairwise (· ≤ ·)) (now : ℕ) :
    trim now queue = queue.filter (recent now) := by
  unfold trim
  induction queue with
  | nil => rfl
  | cons time queue ih =>
    rw [List.pairwise_cons] at h
    by_cases hold : WINDOW ≤ now - time
    · rw [List.dropWhile_cons, decide_eq_true hold, if_pos rfl, ih h.2, List.filter_cons_of_neg]
      simp only [recent, decide_eq_true_eq]
      omega
    · rw [List.dropWhile_cons, decide_eq_false hold, if_neg Bool.false_ne_true,
        List.filter_eq_self.mpr]
      intro later hlater
      have hle : time ≤ later := by
        rcases List.mem_cons.mp hlater with rfl | hmem
        · exact Nat.le_refl later
        · exact h.1 later hmem
      simp only [recent, decide_eq_true_eq]
      omega

/-- INTERNAL: what counts later counts now. -/
theorem filter_recent {times : List ℕ} {now later : ℕ} (h : now ≤ later) :
    (times.filter (recent now)).filter (recent later) = times.filter (recent later) := by
  rw [List.filter_filter]
  apply List.filter_congr
  intro time _
  simp only [recent]
  rw [← Bool.decide_and, decide_eq_decide]
  omega

/-! ## Runs -/

/-- The times of the admitted attempts of a device. -/
def admittedTimes (device : String) (made : List Attempt) : List ℕ :=
  (made.filter fun a => a.device = device && a.admitted).map Attempt.now

/-- INTERNAL: one more attempt of this device or of another one. -/
theorem admittedTimes_snoc (device : String) (made : List Attempt) (a : Attempt) :
    admittedTimes device (made ++ [a]) =
      admittedTimes device made ++ if a.device = device && a.admitted then [a.now] else [] := by
  unfold admittedTimes
  rw [List.filter_append, List.map_append]
  cases hcounts : (decide (a.device = device) && a.admitted) <;> simp [hcounts]

/-- The queues after attempts up to a time. The admitted ones came in order, and each queue holds
those that counted when it was trimmed. -/
structure Kept (history : History) (last : ℕ) : Prop where
  made_le : ∀ a ∈ history.made, a.now ≤ last
  sorted : ∀ device, (admittedTimes device history.made).Pairwise (· ≤ ·)
  queue : ∀ device, ∃ trimmed ≤ last,
    history.attempts device = (admittedTimes device history.made).filter (recent trimmed)

theorem Kept.admitted_le {history : History} {last : ℕ} (h : Kept history last) (device : String) :
    ∀ time ∈ admittedTimes device history.made, time ≤ last := by
  intro time htime
  obtain ⟨a, ha, rfl⟩ := List.mem_map.mp htime
  exact h.made_le a (List.mem_filter.mp ha).1

/-- INTERNAL: **a trimmed queue holds the admitted attempts that still count.** -/
theorem Kept.trim_eq {history : History} {last now : ℕ} (h : Kept history last) (hnow : last ≤ now)
    (device : String) :
    trim now (history.attempts device) = (admittedTimes device history.made).filter (recent now) := by
  obtain ⟨trimmed, htrimmed, hqueue⟩ := h.queue device
  rw [hqueue, trim_eq_filter ((h.sorted device).filter _), filter_recent (by omega)]

/-- INTERNAL: whether an attempt is admitted. -/
theorem Kept.attempt_iff {history : History} {last now : ℕ} (h : Kept history last)
    (hnow : last ≤ now) (device : String) :
    (attempt history.attempts device now).1 = true ↔
      ((admittedTimes device history.made).filter (recent now)).length < LIMIT := by
  rw [← h.trim_eq hnow device]
  unfold attempt
  simp only []
  split_ifs with hfull
  · simp only [false_iff]
    omega
  · simp only [true_iff]
    omega

/-- INTERNAL: the queues after an attempt. -/
theorem attempt_snd (attempts : Attempts) (device : String) (now : ℕ) :
    (attempt attempts device now).2 = Function.update attempts device
      (trim now (attempts device) ++ if (attempt attempts device now).1 then [now] else []) := by
  by_cases hfull : LIMIT ≤ (trim now (attempts device)).length
  · simp [attempt, hfull]
  · simp [attempt, hfull]

/-- INTERNAL: **an attempt keeps the queues.** -/
theorem Kept.step {history : History} {last : ℕ} (h : Kept history last) (device : String) (now : ℕ)
    (hnow : last ≤ now) : Kept (history.step (device, now)) now := by
  unfold History.step
  refine ⟨?_, ?_, ?_⟩
  · intro a ha
    rcases List.mem_append.mp ha with hold | hnew
    · exact Nat.le_trans (h.made_le a hold) hnow
    · exact Nat.le_of_eq (congrArg Attempt.now (List.mem_singleton.mp hnew))
  · intro other
    dsimp only
    rw [admittedTimes_snoc]
    split_ifs
    · rw [List.pairwise_append]
      refine ⟨h.sorted other, List.pairwise_singleton _ _, ?_⟩
      intro time htime time' htime'
      rw [List.mem_singleton.mp htime']
      exact Nat.le_trans (h.admitted_le other time htime) hnow
    · rw [List.append_nil]
      exact h.sorted other
  · intro other
    dsimp only
    rw [admittedTimes_snoc, attempt_snd]
    by_cases hother : other = device
    · subst hother
      refine ⟨now, Nat.le_refl now, ?_⟩
      have hself : recent now now = true := by simp [recent, WINDOW]
      rw [Function.update_self, h.trim_eq hnow, List.filter_append]
      cases (attempt history.attempts other now).1 <;> simp [hself]
    · obtain ⟨trimmed, htrimmed, hqueue⟩ := h.queue other
      refine ⟨trimmed, Nat.le_trans htrimmed hnow, ?_⟩
      rw [Function.update_of_ne hother, decide_eq_false (Ne.symm hother)]
      simpa using hqueue

/-- INTERNAL: **a run keeps the queues.** -/
theorem kept_run (events : List (String × ℕ)) (h : (events.map Prod.snd).Pairwise (· ≤ ·)) (last : ℕ)
    (hlast : ∀ event ∈ events, event.2 ≤ last) : Kept (run events) last := by
  induction events using List.reverseRecOn generalizing last with
  | nil =>
    exact ⟨fun _ ha => absurd ha List.not_mem_nil, fun _ => List.Pairwise.nil, fun _ => ⟨last, Nat.le_refl last, rfl⟩⟩
  | append_singleton events event ih =>
    rw [List.map_append, List.pairwise_append] at h
    have hbefore : ∀ event' ∈ events, event'.2 ≤ event.2 := fun event' hevent' =>
      h.2.2 event'.2 (List.mem_map_of_mem hevent') event.2 (by simp)
    have hkept := (ih h.1 event.2 hbefore).step event.1 event.2 (Nat.le_refl _)
    have hrun : run (events ++ [event]) = (run events).step event := by simp [run]
    rw [hrun]
    have hle : event.2 ≤ last := hlast event (by simp)
    exact ⟨fun a ha => Nat.le_trans (hkept.made_le a ha) hle, hkept.sorted, fun device => by
      obtain ⟨trimmed, htrimmed, hqueue⟩ := hkept.queue device
      exact ⟨trimmed, Nat.le_trans htrimmed hle, hqueue⟩⟩

/-! ## Other devices -/

/-- The attempts of a device with their answers. -/
def ofDevice (device : String) (made : List Attempt) : List Attempt := made.filter (·.device = device)

/-- INTERNAL: an attempt of another device. -/
theorem step_other {device : String} (history : History) {event : String × ℕ} (h : event.1 ≠ device) :
    (history.step event).attempts device = history.attempts device ∧
      ofDevice device (history.step event).made = ofDevice device history.made := by
  unfold History.step
  dsimp only
  rw [attempt_snd, Function.update_of_ne (Ne.symm h)]
  simp [ofDevice, h]

/-- INTERNAL: an attempt of the device, from queues that agree for it. -/
theorem step_same {device : String} {history history' : History} {event : String × ℕ}
    (h : event.1 = device) (hqueue : history.attempts device = history'.attempts device)
    (hmade : ofDevice device history.made = ofDevice device history'.made) :
    (history.step event).attempts device = (history'.step event).attempts device ∧
      ofDevice device (history.step event).made = ofDevice device (history'.step event).made := by
  subst h
  have hanswer : (attempt history.attempts event.1 event.2).1 = (attempt history'.attempts event.1 event.2).1 := by
    unfold attempt
    dsimp only
    rw [hqueue]
    split_ifs
    · rfl
    · rfl
  unfold History.step
  dsimp only
  rw [attempt_snd, attempt_snd, Function.update_self, Function.update_self, hqueue, hanswer]
  unfold ofDevice at hmade ⊢
  rw [List.filter_append, List.filter_append, hmade]
  exact ⟨rfl, rfl⟩

/-- INTERNAL: **the attempts of a device are answered as if it were alone.** -/
theorem ofDevice_foldl (device : String) (events : List (String × ℕ)) (history history' : History)
    (hqueue : history.attempts device = history'.attempts device)
    (hmade : ofDevice device history.made = ofDevice device history'.made) :
    ofDevice device (events.foldl History.step history).made =
      ofDevice device ((events.filter (·.1 = device)).foldl History.step history').made := by
  induction events generalizing history history' with
  | nil => exact hmade
  | cons event events ih =>
    by_cases hdevice : event.1 = device
    · obtain ⟨hqueue', hmade'⟩ := step_same hdevice hqueue hmade
      rw [List.filter_cons_of_pos (by simpa using hdevice), List.foldl_cons, List.foldl_cons]
      exact ih _ _ hqueue' hmade'
    · obtain ⟨hqueue', hmade'⟩ := step_other history hdevice
      rw [List.filter_cons_of_neg (by simpa using hdevice), List.foldl_cons]
      exact ih _ _ (hqueue'.trans hqueue) (hmade'.trans hmade)

/-! ## Windows -/

/-- The admitted attempts of a device in a window that begins at the time. -/
def inWindow (device : String) (start : ℕ) (made : List Attempt) : List ℕ :=
  (admittedTimes device made).filter fun time => decide (start ≤ time) && decide (time < start + WINDOW)

/-- INTERNAL: a window after one more attempt. -/
theorem inWindow_step (device : String) (start : ℕ) (history : History) (event : String × ℕ) :
    inWindow device start (history.step event).made = inWindow device start history.made ++
      (if event.1 = device && (attempt history.attempts event.1 event.2).1 then [event.2] else []).filter
        fun time => decide (start ≤ time) && decide (time < start + WINDOW) := by
  unfold inWindow History.step
  dsimp only
  rw [admittedTimes_snoc, List.filter_append]

/-- INTERNAL: **no window has more than five.** An attempt that is admitted into a window counts
those before it in the window. -/
theorem inWindow_le (device : String) (start : ℕ) (events : List (String × ℕ))
    (h : (events.map Prod.snd).Pairwise (· ≤ ·)) :
    (inWindow device start (run events).made).length ≤ LIMIT := by
  induction events using List.reverseRecOn with
  | nil => exact Nat.zero_le LIMIT
  | append_singleton events event ih =>
    rw [List.map_append, List.pairwise_append] at h
    have hbefore : ∀ event' ∈ events, event'.2 ≤ event.2 := fun event' hevent' =>
      h.2.2 event'.2 (List.mem_map_of_mem hevent') event.2 (by simp)
    have hkept := kept_run events h.1 event.2 hbefore
    have hrun : run (events ++ [event]) = (run events).step event := by simp [run]
    rw [hrun, inWindow_step, List.length_append]
    by_cases hcounts : (event.1 = device && (attempt (run events).attempts event.1 event.2).1) = true
    · rw [if_pos hcounts]
      by_cases hin : start ≤ event.2 ∧ event.2 < start + WINDOW
      · simp only [Bool.and_eq_true, decide_eq_true_eq] at hcounts
        obtain ⟨rfl, hadmitted⟩ := hcounts
        have hfew := (hkept.attempt_iff (Nat.le_refl _) event.1).mp hadmitted
        have hsub : (inWindow event.1 start (run events).made).length ≤
            ((admittedTimes event.1 (run events).made).filter (recent event.2)).length := by
          apply List.Sublist.length_le
          apply List.monotone_filter_right
          intro time htime
          simp only [Bool.and_eq_true, decide_eq_true_eq] at htime
          simp only [recent, decide_eq_true_eq]
          omega
        have hone := List.length_filter_le
          (fun time => decide (start ≤ time) && decide (time < start + WINDOW)) [event.2]
        rw [List.length_singleton] at hone
        omega
      · rw [List.filter_cons_of_neg (by simpa using hin), List.filter_nil, List.length_nil, Nat.add_zero]
        exact ih h.1
    · rw [if_neg hcounts, List.filter_nil, List.length_nil, Nat.add_zero]
      exact ih h.1

/-- What holds of the attempts of a run. -/
structure Limited (events : List (String × ℕ)) : Prop where
  /-- Any window of a minute admits at most five attempts of a device. -/
  window : ∀ device start, (inWindow device start (run events).made).length ≤ LIMIT
  /-- Five recent attempts of the same device are behind a refusal. -/
  refused : ∀ front device now back, events = front ++ (device, now) :: back →
    (attempt (run front).attempts device now).1 = false →
    LIMIT ≤ ((admittedTimes device (run front).made).filter (recent now)).length
  /-- The answers are those the device would get alone. -/
  alone : ∀ device, ofDevice device (run events).made =
    ofDevice device (run (events.filter (·.1 = device))).made

/-- **Five attempts of a device in any minute**, a refusal only after five, and other devices do
not matter. -/
theorem limited (events : List (String × ℕ)) (h : (events.map Prod.snd).Pairwise (· ≤ ·)) :
    Limited events := by
  refine ⟨fun device start => inWindow_le device start events h, ?_, ?_⟩
  · rintro front device now back rfl hrefused
    rw [List.map_append, List.pairwise_append] at h
    have hbefore : ∀ event ∈ front, event.2 ≤ now := fun event hevent =>
      h.2.2 event.2 (List.mem_map_of_mem hevent) now (by simp)
    by_contra hfew
    have hadmitted := ((kept_run front h.1 now hbefore).attempt_iff (Nat.le_refl now) device).mpr (by omega)
    rw [hrefused] at hadmitted
    exact Bool.false_ne_true hadmitted
  · intro device
    exact ofDevice_foldl device events _ _ rfl rfl

/-- **Six attempts at once and one a minute later.** -/
theorem limited_sample : Limited [("a", 1), ("a", 1), ("b", 1), ("a", 1), ("a", 1), ("a", 1), ("a", 1),
    ("a", 60000000001)] := limited _ (by decide)

end VaultAccess.Analysis.AttemptLimits
