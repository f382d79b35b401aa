import VaultAccess.Model.AgentSocket

/-!
# Waiting for a request to end

`src/adapters/agent_wait.rs`: the loop an agent's client runs until its request has ended. The
queries and the output are the caller's; a run lists what the loop does with the answers it is
given.
-/

set_option autoImplicit false

namespace VaultAccess.Model

open Application (AgentStatus)

/-- SRCLINE: protocol.rs:284-291 -/
def Application.AgentStatus.isTerminal : AgentStatus → Bool
  | denied | expired | completed _ | failed _ => true
  | pending | approved | running => false

namespace AgentWait

/-- SRCLINE: agent_wait.rs:12-20 -/
inductive ClientError where
  | localFailure
  | transportUncertain
  | waitTimeout
  | interrupted
  | terminated
  deriving DecidableEq, Repr

/-- SRCLINE: agent_wait.rs:22-31 -/
def ClientError.exitCode : ClientError → UInt8
  | localFailure => 1
  | transportUncertain => 3
  | waitTimeout => 4
  | interrupted => 130
  | terminated => 143

/-- SRCLINE: agent_wait.rs:175-184 -/
def observationExit : AgentResponse → UInt8
  | .pending .. => 0
  | .status _ _ state =>
    match state with
    | .denied | .expired | .failed _ => 1
    | _ => 0
  | .rejected .. => 1

/-- The exit code of a client.
SRCLINE: vw-access.rs:396-412 -/
def exit : Except ClientError UInt8 → UInt8
  | .ok code => code
  | .error error => error.exitCode

/-- What the loop does, the length of a sleep in milliseconds. -/
inductive Action where
  | query
  | emit (response : AgentResponse)
  | sleep (milliseconds : ℕ)
  deriving DecidableEq, Repr

/-- The actions of a run, and its result unless it still waits for an answer. -/
structure Run where
  actions : List Action
  result : Option (Except ClientError UInt8)
  deriving DecidableEq

/-- A run behind other actions. -/
def Run.after (actions : List Action) (run : Run) : Run :=
  { run with actions := actions ++ run.actions }

/-- How a turn of the loop goes on. -/
inductive Flow where
  | again (previous : Option AgentStatus)
  | done (code : UInt8)
  deriving DecidableEq, Repr

/-- The `match` of the loop: what is emitted, and how the loop goes on when the output answers
`output`.
SRCLINE: agent_wait.rs:200-220 -/
def body (output : Except ClientError Unit) (previous : Option AgentStatus) (response : AgentResponse) :
    List AgentResponse × Except ClientError Flow :=
  match response with
  | .status _ _ state =>
    let stop (previous : Option AgentStatus) : Flow :=
      if state.isTerminal then .done (observationExit response) else .again previous
    if previous ≠ some state then
      ([response], do
        output
        pure (stop (some state)))
    else ([], pure (stop previous))
  | .rejected _ .busy => ([], pure (.again previous))
  | .rejected .. =>
    ([response], do
      output
      pure (.done 1))
  | .pending .. => ([], throw .transportUncertain)

/-- The loop over the answers of the queries. `output n` is what the output answers to the
emission after `n` others.
SRCLINE: agent_wait.rs:197-224 -/
def turns (output : ℕ → Except ClientError Unit) (previous : Option AgentStatus) (delay emitted : ℕ) :
    List (Except ClientError AgentResponse) → Run
  | [] => ⟨[.query], none⟩
  | .error error :: _ => ⟨[.query], some (.error error)⟩
  | .ok response :: answers =>
    let (emissions, flow) := body (output emitted) previous response
    let actions := .query :: emissions.map .emit
    match flow with
    | .error error => ⟨actions, some (.error error)⟩
    | .ok (.done code) => ⟨actions, some (.ok code)⟩
    | .ok (.again previous) =>
      (turns output previous (min (delay * 2) 1000) (emitted + emissions.length) answers).after
        (actions ++ [.sleep delay])

/-- SRCLINE: agent_wait.rs:188-224 -/
def wait (output : ℕ → Except ClientError Unit) (answers : List (Except ClientError AgentResponse)) : Run :=
  turns output none 100 0 answers

end AgentWait

end VaultAccess.Model
