import Mathlib.Data.List.Count
import Mathlib.Tactic.SplitIfs
import VaultAccess.Library.Runs
import VaultAccess.Model.ExecutionQueue

/-!
# The counter and the channel of the execution worker

The counter covers the calls that have reserved it, the ids in the channel and the id that was
received and not counted yet. So it never goes below zero or above the capacity, and the channel
is never found full. While the worker lives, it receives the ids in the order they were sent.
-/

set_option autoImplicit false

namespace VaultAccess.Analysis.ExecutionQueues

open VaultAccess.Library VaultAccess.Model.ExecutionQueue

/-! ## The counter -/

/-- The call has reserved and not given back. -/
def reserves (call : Call) : Bool :=
  match call.stage with
  | .sending | .releasing => true
  | _ => false

/-- What the worker owes the counter. -/
def owes : Worker → ℕ
  | .received _ => 1
  | _ => 0

/-- The counter covers what it counts, and neither of the two failures has happened. -/
structure Counted (q : Queue) : Prop where
  counted : q.calls.countP reserves + q.channel.length + owes q.worker ≤ q.queued
  bounded : q.queued ≤ EXECUTION_QUEUE_CAPACITY
  notUnderflowed : q.underflowed = false
  notFull : q.full = false

/-- INTERNAL: a call at another stage. -/
theorem countP_setStage {q : Queue} {n : ℕ} {call : Call} (h : q.calls[n]? = some call) (stage : Stage) :
    (q.setStage n call stage).calls.countP reserves + (if reserves call then 1 else 0) =
      q.calls.countP reserves + if reserves { call with stage } then 1 else 0 := by
  obtain ⟨hn, hcall⟩ := List.getElem?_eq_some_iff.mp h
  have hset := List.countP_set (p := reserves) (a := { call with stage }) hn
  have hmem : reserves call = true → 0 < q.calls.countP reserves := fun hr =>
    List.countP_pos_iff.mpr ⟨call, List.mem_of_getElem? h, hr⟩
  unfold Queue.setStage
  dsimp only
  rw [hset, hcall]
  by_cases hr : reserves call = true
  · have hpos := hmem hr
    rw [if_pos hr]
    omega
  · rw [if_neg hr]
    omega

theorem fetchSub_eq {q : Queue} (h : 0 < q.queued) : q.fetchSub = { q with queued := q.queued - 1 } := by
  unfold Queue.fetchSub
  rw [if_neg (by omega)]

/-- INTERNAL: **one step of a call.** -/
theorem Counted.advance {q : Queue} (h : Counted q) {n : ℕ} {call : Call}
    (hcall : q.calls[n]? = some call) (spurious : Bool) : Counted (q.advance n call spurious) := by
  have hcounted := h.counted
  have hset := countP_setStage hcall
  have hmoves : ∀ stage, reserves call = false → reserves { call with stage } = false →
      Counted (q.setStage n call stage) := by
    intro stage hbefore hafter
    have hcount := hset stage
    rw [hbefore, hafter] at hcount
    exact ⟨Nat.le_trans (by simp only [Queue.setStage] at hcount ⊢; simp at hcount; omega) h.counted,
      h.bounded, h.notUnderflowed, h.notFull⟩
  obtain ⟨id, stage⟩ := call
  cases stage with
  | loading => exact hmoves _ rfl rfl
  | trying queued =>
    simp only [Queue.advance]
    split_ifs with hfull hsame
    · exact hmoves _ rfl rfl
    · have hcount := hset .sending
      simp only [Bool.and_eq_true, decide_eq_true_eq] at hsame
      simp only [reserves, Bool.false_eq_true, if_false, if_true, Nat.add_zero, Queue.setStage] at hcount
      refine ⟨?_, by simp only []; omega, h.notUnderflowed, h.notFull⟩
      simp only [Queue.setStage, hcount]
      omega
    · exact hmoves _ rfl rfl
  | sending =>
    have hreserved : reserves ⟨id, .sending⟩ = true := rfl
    have hpos := List.countP_pos_iff.mpr ⟨_, List.mem_of_getElem? hcall, hreserved⟩
    have hbounded := h.bounded
    have hkeeps : ∀ full, full = false → Counted { q.setStage n ⟨id, .sending⟩ .releasing with full } := by
      intro full hfull
      have hcount := hset .releasing
      simp only [reserves, if_true, Queue.setStage] at hcount
      refine ⟨?_, h.bounded, h.notUnderflowed, hfull⟩
      simp only [Queue.setStage]
      omega
    simp only [Queue.advance, Queue.trySend]
    split_ifs with hfinished hroom
    · exact hkeeps q.full h.notFull
    · have hcount := hset (.returned true)
      simp only [reserves, Bool.false_eq_true, if_false, if_true, Nat.add_zero, Queue.setStage] at hcount
      refine ⟨?_, h.bounded, h.notUnderflowed, h.notFull⟩
      simp only [Queue.setStage, List.length_append, List.length_singleton]
      omega
    · -- the reservation of this call leaves room for its id
      omega
  | releasing =>
    have hreserved : reserves ⟨id, .releasing⟩ = true := rfl
    have hpos := List.countP_pos_iff.mpr ⟨_, List.mem_of_getElem? hcall, hreserved⟩
    have hbounded := h.bounded
    have hcount := hset (.returned false)
    simp only [reserves, Bool.false_eq_true, if_false, if_true, Nat.add_zero, Queue.setStage] at hcount
    simp only [Queue.advance]
    rw [fetchSub_eq (by simp only [Queue.setStage]; omega)]
    refine ⟨?_, by simp only [Queue.setStage]; omega, h.notUnderflowed, h.notFull⟩
    simp only [Queue.setStage]
    omega
  | returned ok => exact h

/-- INTERNAL: **one step of the worker.** -/
theorem Counted.work {q : Queue} (h : Counted q) : Counted q.work := by
  have hcounted := h.counted
  have hbounded := h.bounded
  unfold Queue.work
  cases hworker : q.worker with
  | receiving =>
    cases hchannel : q.channel with
    | nil => exact h
    | cons id rest =>
      rw [hworker, hchannel] at hcounted
      refine ⟨?_, h.bounded, h.notUnderflowed, h.notFull⟩
      simp only [owes, List.length_cons] at hcounted ⊢
      omega
  | received id =>
    rw [hworker] at hcounted
    simp only [owes] at hcounted
    simp only [fetchSub_eq (q := q) (by omega)]
    refine ⟨?_, by simp only []; omega, h.notUnderflowed, h.notFull⟩
    simp only [owes]
    omega
  | executing id =>
    rw [hworker] at hcounted
    exact ⟨hcounted, h.bounded, h.notUnderflowed, h.notFull⟩
  | finished => exact h

/-- INTERNAL: the worker's end. -/
theorem Counted.finish {q : Queue} (h : Counted q) : Counted q.finish := by
  have hcounted := h.counted
  unfold Queue.finish
  cases hworker : q.worker with
  | receiving =>
    rw [hworker] at hcounted
    dsimp only
    split_ifs
    · exact ⟨hcounted, h.bounded, h.notUnderflowed, h.notFull⟩
    · exact h
  | executing id =>
    rw [hworker] at hcounted
    refine ⟨?_, h.bounded, h.notUnderflowed, h.notFull⟩
    simp only [owes, List.length_nil] at hcounted ⊢
    omega
  | received id => exact h
  | finished => exact h

/-- INTERNAL: **one event.** -/
theorem Counted.step {q : Queue} (h : Counted q) (event : Event) : Counted (q.step event) := by
  cases event with
  | dispatch id =>
    refine ⟨?_, h.bounded, h.notUnderflowed, h.notFull⟩
    have hcounted := h.counted
    simp only [Queue.step, List.countP_append, List.countP_singleton, reserves, Bool.false_eq_true,
      if_false, Nat.add_zero]
    exact hcounted
  | advance n spurious =>
    simp only [Queue.step]
    split
    · next call hcall => exact h.advance hcall spurious
    · exact h
  | work => exact h.work
  | finish => exact h.finish

/-! ## The order -/

/-- What is sent is received in order, and an id is sent once for each call that returns `Ok`. -/
structure Ordered (q : Queue) : Prop where
  alive : q.worker ≠ .finished → q.sent.map Prod.snd = q.received ++ q.channel
  received : q.received <+: q.sent.map Prod.snd
  accepted : ∀ n id, (n, id) ∈ q.sent ↔ q.calls[n]? = some ⟨id, .returned true⟩
  once : (q.sent.map Prod.fst).Nodup

/-- INTERNAL: a call that goes on without sending. -/
theorem Ordered.setStage {q : Queue} (h : Ordered q) {n : ℕ} {call : Call} {stage : Stage}
    (hcall : q.calls[n]? = some call) (hbefore : call.stage ≠ .returned true)
    (hafter : stage ≠ .returned true) : Ordered (q.setStage n call stage) := by
  refine ⟨h.alive, h.received, ?_, h.once⟩
  intro m id
  rw [show (q.setStage n call stage).sent = q.sent from rfl, h.accepted]
  unfold Queue.setStage
  dsimp only
  by_cases hm : n = m
  · subst hm
    rw [hcall, List.getElem?_set_self (List.getElem?_eq_some_iff.mp hcall).1]
    constructor
    · intro heq
      rw [Option.some.inj heq] at hbefore
      exact absurd rfl hbefore
    · intro heq
      have hstage := congrArg Call.stage (Option.some.inj heq)
      exact absurd hstage hafter
  · rw [List.getElem?_set_ne hm]

/-- INTERNAL: **an id that the channel takes.** -/
theorem Ordered.send {q : Queue} (h : Ordered q) {n : ℕ} {id : String}
    (hcall : q.calls[n]? = some ⟨id, .sending⟩) (hworker : q.worker ≠ .finished) :
    Ordered { q.setStage n ⟨id, .sending⟩ (.returned true) with
      channel := q.channel ++ [id], sent := q.sent ++ [(n, id)] } := by
  have hnew : ∀ id', (n, id') ∉ q.sent := by
    intro id' hmem
    have hreturned := (h.accepted n id').mp hmem
    rw [hcall] at hreturned
    exact absurd (congrArg Call.stage (Option.some.inj hreturned)) (by simp)
  refine ⟨?_, ?_, ?_, ?_⟩
  · intro _
    simp only [Queue.setStage, List.map_append, List.map_cons, List.map_nil]
    rw [h.alive hworker, List.append_assoc]
  · simp only [Queue.setStage, List.map_append]
    exact h.received.trans (List.prefix_append _ _)
  · intro m id'
    simp only [Queue.setStage, List.mem_append, List.mem_singleton, Prod.mk.injEq]
    by_cases hm : n = m
    · subst hm
      rw [List.getElem?_set_self (List.getElem?_eq_some_iff.mp hcall).1]
      constructor
      · rintro (hmem | ⟨-, rfl⟩)
        · exact absurd hmem (hnew id')
        · rfl
      · intro heq
        exact .inr ⟨rfl, (congrArg Call.id (Option.some.inj heq)).symm⟩
    · rw [List.getElem?_set_ne hm, h.accepted]
      constructor
      · rintro (hold | ⟨rfl, -⟩)
        · exact hold
        · exact absurd rfl hm
      · exact .inl
  · simp only [List.map_append, List.map_cons, List.map_nil]
    rw [List.nodup_append]
    refine ⟨h.once, by simp, ?_⟩
    intro m hm m' hm' heq
    obtain ⟨⟨m₁, id'⟩, hmem, rfl⟩ := List.mem_map.mp hm
    rw [List.mem_singleton.mp hm'] at heq
    subst heq
    exact hnew id' hmem

theorem Ordered.counter {q : Queue} (h : Ordered q) (queued : ℕ) (underflowed full : Bool) :
    Ordered { q with queued, underflowed, full } := ⟨h.alive, h.received, h.accepted, h.once⟩

theorem Ordered.fetchSub {q : Queue} (h : Ordered q) : Ordered q.fetchSub := by
  unfold Queue.fetchSub
  split_ifs
  · exact h.counter _ true q.full
  · exact h.counter _ q.underflowed q.full

/-- INTERNAL: **one step of a call.** -/
theorem Ordered.advance {q : Queue} (h : Ordered q) {n : ℕ} {call : Call}
    (hcall : q.calls[n]? = some call) (spurious : Bool) : Ordered (q.advance n call spurious) := by
  obtain ⟨id, stage⟩ := call
  cases stage with
  | loading => exact h.setStage hcall (by simp) (by simp)
  | trying queued =>
    simp only [Queue.advance]
    split_ifs
    · exact h.setStage hcall (by simp) (by simp)
    · exact (h.setStage hcall (by simp) (by simp)).counter _ q.underflowed q.full
    · exact h.setStage hcall (by simp) (by simp)
  | sending =>
    simp only [Queue.advance, Queue.trySend]
    split_ifs with hfinished
    · exact h.setStage hcall (by simp) (by simp)
    · exact h.send hcall hfinished
    · exact (h.setStage hcall (by simp) (by simp)).counter q.queued q.underflowed true
  | releasing => exact (h.setStage hcall (by simp) (by simp)).fetchSub
  | returned ok => exact h

/-- INTERNAL: **one step of the worker.** -/
theorem Ordered.work {q : Queue} (h : Ordered q) : Ordered q.work := by
  unfold Queue.work
  cases hworker : q.worker with
  | receiving =>
    have halive := h.alive (by rw [hworker]; simp)
    cases hchannel : q.channel with
    | nil => exact h
    | cons id rest =>
      rw [hchannel, List.append_cons] at halive
      refine ⟨fun _ => halive, ?_, h.accepted, h.once⟩
      dsimp only
      rw [halive]
      exact List.prefix_append _ _
  | received id =>
    have halive := h.fetchSub.alive
    refine ⟨fun _ => halive ?_, h.fetchSub.received, h.fetchSub.accepted, h.fetchSub.once⟩
    unfold Queue.fetchSub
    split_ifs <;> simp [hworker]
  | executing id => exact ⟨fun _ => h.alive (by rw [hworker]; simp), h.received, h.accepted, h.once⟩
  | finished => exact h

/-- INTERNAL: the worker's end. -/
theorem Ordered.finish {q : Queue} (h : Ordered q) : Ordered q.finish := by
  unfold Queue.finish
  cases hworker : q.worker with
  | receiving =>
    dsimp only
    split_ifs
    · exact ⟨fun hne => absurd rfl hne, h.received, h.accepted, h.once⟩
    · exact h
  | executing id => exact ⟨fun hne => absurd rfl hne, h.received, h.accepted, h.once⟩
  | received id => exact h
  | finished => exact h

/-- INTERNAL: **one event.** -/
theorem Ordered.step {q : Queue} (h : Ordered q) (event : Event) : Ordered (q.step event) := by
  cases event with
  | dispatch id =>
    refine ⟨h.alive, h.received, ?_, h.once⟩
    intro n id'
    rw [show (q.step (.dispatch id)).sent = q.sent from rfl, h.accepted]
    simp only [Queue.step, List.getElem?_append]
    split_ifs with hn
    · rfl
    · rw [List.getElem?_eq_none (by omega)]
      simp only [reduceCtorEq, false_iff]
      intro heq
      have hmem := List.mem_singleton.mp (List.mem_of_getElem? heq)
      exact absurd (congrArg Call.stage hmem) (by simp)
  | advance n spurious =>
    simp only [Queue.step]
    split
    · next call hcall => exact h.advance hcall spurious
    · exact h
  | work => exact h.work
  | finish => exact h.finish

/-! ## Runs -/

theorem run_counted (events : List Event) : Counted (run events) :=
  run_invariant Queue.step Counted (fun _ event h => h.step event) _ events
    ⟨Nat.le_refl 0, Nat.zero_le _, rfl, rfl⟩

theorem run_ordered (events : List Event) : Ordered (run events) := by
  apply run_invariant Queue.step Ordered (fun _ event h => h.step event)
  refine ⟨fun _ => rfl, List.nil_prefix, ?_, List.nodup_nil⟩
  intro n id
  simp [Queue.start]

/-- The worker alone, for as many steps. -/
def drain : Queue → ℕ → Queue
  | q, 0 => q
  | q, n + 1 => drain q.work n

/-- INTERNAL: some steps, then some more. -/
theorem drain_add (q : Queue) (m n : ℕ) : drain q (m + n) = drain (drain q m) n := by
  induction m generalizing q with
  | zero => rw [Nat.zero_add, drain]
  | succ m ih =>
    rw [show m + 1 + n = (m + n) + 1 by omega]
    exact ih q.work

/-- INTERNAL: a step of the worker sends nothing and does not end it. -/
theorem work_keeps (q : Queue) : (q.work).sent = q.sent ∧ (q.worker ≠ .finished → (q.work).worker ≠ .finished) := by
  unfold Queue.work
  cases hworker : q.worker with
  | receiving => cases q.channel <;> simp [hworker]
  | received id =>
    refine ⟨?_, by simp⟩
    unfold Queue.fetchSub
    split_ifs <;> rfl
  | executing id => simp
  | finished => simp

theorem drain_receiving {q : Queue} (hworker : q.worker = .receiving) {rest : List String} {id : String}
    (hchannel : q.channel = id :: rest) :
    (drain q 3).worker = .receiving ∧ (drain q 3).channel = rest := by
  simp only [drain, Queue.work, hworker, hchannel, Queue.fetchSub]
  split_ifs <;> simp

/-- INTERNAL: **a waiting worker empties the channel.** -/
theorem drain_channel {q : Queue} (hworker : q.worker = .receiving) :
    (drain q (3 * q.channel.length)).channel = [] := by
  cases hchannel : q.channel with
  | nil => exact hchannel
  | cons id rest =>
    obtain ⟨hnext, hrest⟩ := drain_receiving hworker hchannel
    have hih := drain_channel hnext
    rw [hrest] at hih
    rw [List.length_cons, show 3 * (rest.length + 1) = 3 + 3 * rest.length by omega, drain_add]
    exact hih
termination_by q.channel.length
decreasing_by
  rw [hrest, hchannel]
  exact Nat.lt_succ_self _

/-- INTERNAL: a worker that lives waits again after at most two steps. -/
theorem drain_waits {q : Queue} (hworker : q.worker ≠ .finished) :
    ∃ n, (drain q n).worker = .receiving := by
  cases hcase : q.worker with
  | receiving => exact ⟨0, hcase⟩
  | received id =>
    refine ⟨2, ?_⟩
    simp [drain, Queue.work, hcase]
  | executing id =>
    refine ⟨1, ?_⟩
    simp [drain, Queue.work, hcase]
  | finished => exact absurd hcase hworker

/-- INTERNAL: what the worker's steps alone keep. -/
theorem drain_keeps {q : Queue} (h : Ordered q) (hworker : q.worker ≠ .finished) (n : ℕ) :
    Ordered (drain q n) ∧ (drain q n).sent = q.sent ∧ (drain q n).worker ≠ .finished := by
  induction n generalizing q with
  | zero => exact ⟨h, rfl, hworker⟩
  | succ n ih =>
    obtain ⟨hsent, halive⟩ := work_keeps q
    obtain ⟨hordered, hsame, hlives⟩ := ih h.work (halive hworker)
    exact ⟨hordered, hsame.trans hsent, hlives⟩

/-- INTERNAL: **a worker that lives receives all that was sent.** -/
theorem drain_received {q : Queue} (h : Ordered q) (hworker : q.worker ≠ .finished) :
    ∃ n, (drain q n).received = q.sent.map Prod.snd := by
  obtain ⟨m, hwaits⟩ := drain_waits hworker
  have hempty := drain_channel hwaits
  obtain ⟨hordered, hsent, hlives⟩ := drain_keeps h hworker (m + 3 * (drain q m).channel.length)
  rw [drain_add] at hordered hsent hlives
  refine ⟨m + 3 * (drain q m).channel.length, ?_⟩
  have halive := hordered.alive hlives
  rw [hempty, List.append_nil, hsent] at halive
  rw [drain_add]
  exact halive.symm

/-- What holds after any run of any number of calls and the worker. -/
structure Bounded (q : Queue) : Prop where
  /-- The counter never goes below zero, is never above the capacity and covers the channel. -/
  notUnderflowed : q.underflowed = false
  capacity : q.queued ≤ 8
  covered : q.channel.length ≤ q.queued
  /-- No id was refused because the channel was full. -/
  notFull : q.full = false
  /-- One id was sent for each call that returned `Ok`, and for no other. -/
  accepted : ∀ n id, (n, id) ∈ q.sent ↔ q.calls[n]? = some ⟨id, .returned true⟩
  once : (q.sent.map Prod.fst).Nodup
  /-- The ids were received in the order they were sent. While the worker lives, those that were
  not are in the channel, and its own next steps receive them too. -/
  inOrder : q.received <+: q.sent.map Prod.snd
  waiting : q.worker ≠ .finished → q.sent.map Prod.snd = q.received ++ q.channel
  drained : q.worker ≠ .finished → ∃ n, (drain q n).received = q.sent.map Prod.snd

/-- **Every interleaving of the calls and the worker.** -/
theorem bounded (events : List Event) : Bounded (run events) := by
  have hcounted := run_counted events
  have hordered := run_ordered events
  exact {
    notUnderflowed := hcounted.notUnderflowed
    capacity := hcounted.bounded
    covered := by
      have h := hcounted.counted
      omega
    notFull := hcounted.notFull
    accepted := hordered.accepted
    once := hordered.once
    inOrder := hordered.received
    waiting := hordered.alive
    drained := drain_received hordered }

end VaultAccess.Analysis.ExecutionQueues
