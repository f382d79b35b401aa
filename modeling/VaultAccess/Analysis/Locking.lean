import VaultAccess.Model.Locking

/-!
# No deadlock on the provider's locks

The mutexes of the provider are taken in one order: the browser surface, the gate, the release
gate, and then one of the executions, the tokens and the launches. The checker reads this off
every operation, so no threads ever wait for each other in a circle.
-/

set_option autoImplicit false

namespace VaultAccess.Analysis.Locking

open VaultAccess.Library VaultAccess.Model.Locking

/-- INTERNAL: **every operation takes its locks in order.** -/
theorem operation_ordered (operation : Operation) : operation.code.ordered Lock.rank [] = true := by
  cases operation <;> decide

/-- The gate is not waited for while the release gate is held. -/
example : (LockCode.locked Lock.releaseGate .fatal (.locked .gate .fatal .skip)).ordered Lock.rank [] = false := by
  decide

/-- INTERNAL: a thread takes its locks in order. -/
theorem worker_ordered (operations : List Operation) : (worker operations).ordered Lock.rank [] = true := by
  induction operations with
  | nil => rfl
  | cons operation rest ih =>
    show ((LockCode.attempt operation.code).ordered Lock.rank [] && (worker rest).ordered Lock.rank []) = true
    rw [Bool.and_eq_true]
    exact ⟨operation_ordered operation, ih⟩

theorem inOrder_machine (events : List (SystemEvent LockInput Empty Unit (List Operation))) :
    InOrder Lock.rank ((System.idle Locks.free).run machine events) :=
  inOrder_run worker_ordered events

/-- **The provider's threads never wait for each other in a circle**, and none waits for a lock that
it holds.
SRCLINE: application.rs:251-409, 441-769, 1374-1752; loopback_ui.rs:93-158, 264-330 -/
theorem no_deadlock (events : List (SystemEvent LockInput Empty Unit (List Operation))) :
    let sys := (System.idle Locks.free).run machine events
    (∀ t, ¬ Relation.TransGen (Waits sys) t t) ∧ ∀ t, ¬ Waits sys t t := by
  intro sys
  have hcycle : ∀ t, ¬ Relation.TransGen (Waits sys) t t := (inOrder_machine events).no_cycle
  exact ⟨hcycle, fun t hwaits => hcycle t (.single hwaits)⟩

end VaultAccess.Analysis.Locking
