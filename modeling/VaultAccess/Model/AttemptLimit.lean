import Mathlib.Data.Nat.Notation
import Mathlib.Logic.Function.Basic

/-!
# Attempts of companion devices

`State::attempt` of `src/adapters/companion.rs`: a queue of times for each device, trimmed at
its front whenever the device makes an attempt. Times are nanoseconds of the provider's clock.
-/

set_option autoImplicit false

namespace VaultAccess.Model.AttemptLimit

/-- `Duration::from_secs(60)`. -/
def WINDOW : ℕ := 60 * 1000000000

/-- How many attempts a queue holds. -/
def LIMIT : ℕ := 5

/-- The queue of each device; a device without an entry has an empty one.
SRCLINE: companion.rs:250 -/
abbrev Attempts := String → List ℕ

/-- The attempts at the front that are too old are gone. -/
def trim (now : ℕ) (queue : List ℕ) : List ℕ := queue.dropWhile fun time => decide (WINDOW ≤ now - time)

/-- SRCLINE: companion.rs:256-269 -/
def attempt (attempts : Attempts) (device : String) (now : ℕ) : Bool × Attempts :=
  let queue := trim now (attempts device)
  if LIMIT ≤ queue.length then (false, Function.update attempts device queue)
  else (true, Function.update attempts device (queue ++ [now]))

/-- An attempt that was made, with its answer. -/
structure Attempt where
  device : String
  now : ℕ
  admitted : Bool
  deriving DecidableEq, Repr

/-- The queues, and the attempts so far. -/
structure History where
  attempts : Attempts
  made : List Attempt

/-- One more attempt. -/
def History.step (history : History) (event : String × ℕ) : History :=
  let (admitted, attempts) := attempt history.attempts event.1 event.2
  ⟨attempts, history.made ++ [⟨event.1, event.2, admitted⟩]⟩

/-- A run from empty queues. -/
def run (events : List (String × ℕ)) : History := events.foldl History.step ⟨fun _ => [], []⟩

end VaultAccess.Model.AttemptLimit
