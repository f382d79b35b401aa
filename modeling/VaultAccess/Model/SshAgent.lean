import VaultAccess.Library.Encoding
import VaultAccess.Library.Text

/-!
# The agent of one SSH execution

`src/adapters/ssh_agent.rs`: an agent takes one connection, reads frames from it a piece at a
time, answers each and lets one signature go. Keys and signatures come from a package and are
parameters; what a poll meets outside (the clock, the socket, the control) is its environment.
-/

set_option autoImplicit false

namespace VaultAccess.Model.SshAgent

open VaultAccess.Library

/-- SRCLINE: ssh_agent.rs:29 -/
def MAX_FRAME : ℕ := 32 * 1024

/-- In milliseconds.
SRCLINE: ssh_agent.rs:30 -/
def IO_TIMEOUT : ℕ := 5000

/-- SRCLINE: ssh_agent.rs:31 -/
def MAX_MESSAGES : ℕ := 32

inductive HashAlg where
  | sha256
  | sha512
  deriving DecidableEq, Repr

/-- The key that was installed and the key of the host, as the package uses them. -/
structure Keys (Signature : Type) where
  /-- `Signature::decode`, with what is left. -/
  decode : List UInt8 → Option (Signature × List UInt8)
  /-- `Verifier::verify` of the host's key. -/
  verify : List UInt8 → Signature → Bool
  rsa : Bool
  algorithm : List UInt8
  /-- `try_sign`, encoded. -/
  sign : Option HashAlg → List UInt8 → Option (List UInt8)

/-- SRCLINE: ssh_agent.rs:61-66 -/
structure Connection where
  input : List UInt8
  session : Option (List UInt8)
  deadline : ℕ
  deriving DecidableEq, Repr

/-- `written` is a history: the responses that were written in full.
SRCLINE: ssh_agent.rs:46-60 -/
structure Agent where
  listening : Bool
  key : Bool
  publicKey : List UInt8
  hostBlob : List UInt8
  user : List UInt8
  recipient : Bool
  connection : Option Connection
  consumed : Bool
  messages : ℕ
  written : List (List UInt8)
  deriving DecidableEq, Repr

/-- SRCLINE: ssh_agent.rs:70-78 -/
def framed (value : List UInt8) : List UInt8 := Frames.beFrame value

/-! ## Messages -/

/-- SRCLINE: ssh_agent.rs:79 -/
abbrev Reader := StateT (List UInt8) Option

namespace Reader

/-- SRCLINE: ssh_agent.rs:81-88 -/
def byte : Reader UInt8 := fun bytes => match bytes with
  | [] => none
  | b :: rest => some (b, rest)

/-- SRCLINE: ssh_agent.rs:89-94 -/
def uint : Reader ℕ := fun bytes =>
  if bytes.length < 4 then none else some (Frames.unle (bytes.take 4).reverse, bytes.drop 4)

/-- SRCLINE: ssh_agent.rs:95-100 -/
def string : Reader (List UInt8) := do
  let size ← uint
  fun bytes => if bytes.length < size then none else some (bytes.take size, bytes.drop size)

/-- `end`.
SRCLINE: ssh_agent.rs:101-107 -/
def finish : Reader Unit := fun bytes => if bytes.isEmpty then some ((), []) else none

/-- `return Err` unless. -/
def ensure (condition : Bool) : Reader Unit := if condition then pure () else fun _ => none

end Reader

/-- A response, whether it is a signature, and the session from then on. -/
structure Reply where
  response : List UInt8
  signing : Bool
  session : Option (List UInt8)
  deriving DecidableEq, Repr

section Answer

variable {Signature : Type} (keys : Keys Signature) (agent : Agent)

/-- SRCLINE: ssh_agent.rs:426-433 -/
def Agent.identities (session : Option (List UInt8)) : Reader Reply := do
  Reader.finish
  return ⟨[12] ++ Frames.be 4 1 ++ framed agent.publicKey ++ framed [], false, session⟩

/-- SRCLINE: ssh_agent.rs:434-457 -/
def Agent.bindSession (session : Option (List UInt8)) : Reader Reply := do
  Reader.ensure ((← Reader.string) = Text.bytes "session-bind@openssh.com")
  Reader.ensure session.isNone
  Reader.ensure ((← Reader.string) = agent.hostBlob)
  let identifier ← Reader.string
  Reader.ensure (decide (16 ≤ identifier.length ∧ identifier.length ≤ 64))
  let (signature, left) ← (keys.decode (← Reader.string) : Option _)
  Reader.ensure left.isEmpty
  Reader.ensure ((← Reader.byte) = 0)
  Reader.finish
  Reader.ensure (keys.verify identifier signature)
  return ⟨[6], false, some identifier⟩

/-- What is to be signed: the algorithm it names.
SRCLINE: ssh_agent.rs:465-485 -/
def Agent.authentication (session : Option (List UInt8)) : Reader (List UInt8) := do
  Reader.ensure (some (← Reader.string) = session)
  Reader.ensure ((← Reader.byte) = 50)
  Reader.ensure ((← Reader.string) = agent.user)
  Reader.ensure ((← Reader.string) = Text.bytes "ssh-connection")
  let method ← Reader.string
  let hostbound : Bool := method = Text.bytes "publickey-hostbound-v00@openssh.com"
  Reader.ensure (hostbound || method = Text.bytes "publickey")
  Reader.ensure ((← Reader.byte) = 1)
  let algorithm ← Reader.string
  Reader.ensure ((← Reader.string) = agent.publicKey)
  if hostbound then Reader.ensure ((← Reader.string) = agent.hostBlob)
  Reader.finish
  return algorithm

/-- SRCLINE: ssh_agent.rs:486-499 -/
def Keys.signature (flags : ℕ) (algorithm data : List UInt8) : Option (List UInt8) :=
  if keys.rsa then
    if flags = 2 ∧ algorithm = Text.bytes "rsa-sha2-256" then keys.sign (some .sha256) data
    else if flags = 4 ∧ algorithm = Text.bytes "rsa-sha2-512" then keys.sign (some .sha512) data
    else none
  else if flags = 0 ∧ algorithm = keys.algorithm then keys.sign none data
  else none

/-- SRCLINE: ssh_agent.rs:458-505 -/
def Agent.signRequest (session : Option (List UInt8)) : Reader Reply := do
  Reader.ensure !agent.consumed
  Reader.ensure ((← Reader.string) = agent.publicKey)
  let data ← Reader.string
  let flags ← Reader.uint
  Reader.finish
  let (algorithm, _) ← (agent.authentication session data : Option _)
  Reader.ensure agent.key
  let encoded ← (keys.signature flags algorithm data : Option _)
  return ⟨[14] ++ framed encoded, true, session⟩

/-- SRCLINE: ssh_agent.rs:419-508 -/
def Agent.answer (message : List UInt8) (session : Option (List UInt8)) : Option Reply :=
  match message with
  | [] => none
  | kind :: rest =>
    if kind = 11 then (agent.identities session rest).map Prod.fst
    else if kind = 27 then (agent.bindSession keys session rest).map Prod.fst
    else if kind = 13 then (agent.signRequest keys session rest).map Prod.fst
    else none

/-- The answer to a frame: `[5]` if the message is refused.
SRCLINE: ssh_agent.rs:384-385 -/
def Agent.reply (message : List UInt8) (session : Option (List UInt8)) : Reply :=
  (agent.answer keys message session).getD ⟨[5], false, session⟩

end Answer

/-! ## A poll -/

/-- `accept`, with what the peer and its socket are found to be. -/
inductive Accept where
  | peer (valid nonblocking : Bool)
  | wouldBlock
  | failed
  deriving DecidableEq, Repr

/-- One read of at most 4096 bytes. -/
inductive Received where
  | bytes (chunk : List UInt8)
  | eof
  | wouldBlock
  | failed
  deriving DecidableEq, Repr

/-- What a poll meets. `accepted`, `now` and `answered` are its readings of the clock. -/
structure Env where
  live : Bool
  recipientAlive : Bool
  accept : Accept
  accepted : ℕ
  now : ℕ
  answered : ℕ
  received : Received
  /-- The control lets a signature go, and the recipient is still there. -/
  released : Bool
  /-- The socket takes the whole response. -/
  writes : Bool

/-- The size in a header. -/
def header (input : List UInt8) : ℕ := Frames.unle (input.take 4).reverse

/-- There is a frame to handle, or a header to refuse.
SRCLINE: ssh_agent.rs:345-348 -/
def complete (input : List UInt8) : Bool :=
  decide (4 ≤ input.length) &&
    (header input = 0 || decide (MAX_FRAME < header input) || decide (header input + 4 ≤ input.length))

section Poll

variable {Signature : Type} (keys : Keys Signature) (agent : Agent) (env : Env)

/-- SRCLINE: ssh_agent.rs:278-283 -/
def Agent.close : Agent :=
  { agent with key := false, connection := none, listening := false, recipient := false, consumed := true }

/-- What is done with the buffered bytes.
SRCLINE: ssh_agent.rs:364-417 -/
def Agent.process (connection : Connection) : Agent × Bool :=
  let input := connection.input
  if input.length < 4 then ({ agent with connection := some connection }, true)
  else if header input = 0 || decide (MAX_FRAME < header input) || decide (MAX_FRAME + 4 < input.length) then
    (agent.close, true)
  else if input.length < header input + 4 then ({ agent with connection := some connection }, true)
  else if MAX_MESSAGES < agent.messages + 1 then
    ({ agent with messages := agent.messages + 1 }.close, true)
  else
    let reply := agent.reply keys ((input.drop 4).take (header input)) connection.session
    let counted := { agent with messages := agent.messages + 1 }
    let answered := { counted with written := agent.written ++ [framed reply.response] }
    if reply.signing then
      if env.released && env.writes then (answered.close, true) else (counted.close, false)
    else if env.writes then
      ({ answered with
        connection := some {
          input := input.drop (header input + 4)
          session := reply.session
          deadline := env.answered + IO_TIMEOUT } }, true)
    else (counted.close, true)

/-- SRCLINE: ssh_agent.rs:339-363 -/
def Agent.serve (connection : Connection) : Agent × Bool :=
  if connection.deadline ≤ env.now then (agent.close, true)
  else if complete connection.input then agent.process keys env connection
  else match env.received with
    | .bytes chunk => agent.process keys env { connection with input := connection.input ++ chunk }
    | .wouldBlock => agent.process keys env connection
    | .eof => (agent.close, true)
    | .failed => (agent.close, true)

/-- `false` is `Err(ExecutionFailed)` or the error of a socket.
SRCLINE: ssh_agent.rs:301-338 -/
def Agent.poll : Agent × Bool :=
  if agent.consumed then (agent, true)
  else if !env.live || !(agent.recipient && env.recipientAlive) then (agent.close, true)
  else match agent.connection with
    | some connection => { agent with connection := none }.serve keys env connection
    | none =>
      if agent.listening then
        match env.accept with
        | .peer true true => agent.serve keys env ⟨[], none, env.accepted + IO_TIMEOUT⟩
        | .peer false _ => (agent, true)
        | .peer true false => (agent, false)
        | .wouldBlock => (agent, true)
        | .failed => (agent.close, false)
      else (agent, true)

end Poll

/-! ## Polls of one connection -/

/-- The agent and the results of its next reads; `none` is a read that would block. -/
structure Line where
  agent : Agent
  incoming : List (Option (List UInt8))
  deriving DecidableEq, Repr

/-- The next poll reads. -/
def Agent.reads (agent : Agent) : Bool :=
  match agent.connection with
  | none => true
  | some connection => !complete connection.input

/-- One poll. A client that has sent everything keeps its connection open. -/
def Line.step {Signature : Type} (keys : Keys Signature) (line : Line) (env : Env) : Line :=
  if line.agent.reads then
    match line.incoming with
    | some chunk :: rest => ⟨(line.agent.poll keys { env with received := .bytes chunk }).1, rest⟩
    | none :: rest => ⟨(line.agent.poll keys { env with received := .wouldBlock }).1, rest⟩
    | [] => ⟨(line.agent.poll keys { env with received := .wouldBlock }).1, []⟩
  else ⟨(line.agent.poll keys env).1, line.incoming⟩

end VaultAccess.Model.SshAgent
