import VaultAccess.Model.SshAgent

/-!
# A whole run of the agent

`src/adapters/ssh_agent.rs` once more, with the installed key, the recipient and what the
control does in `release`: `install`, `recipient`, `poll` and `close` come in any order. The
package that reads and uses keys is a parameter. The `events` are a history that no call
reads; they tell what was written to which connection, and whether inside `release`.
-/

set_option autoImplicit false

namespace VaultAccess.Model.SshSigning

open VaultAccess.Library VaultAccess.Model.SshAgent

/-- `ssh_key::Algorithm`, as far as `install` tells them apart. -/
inductive Algorithm where
  | ed25519
  | ecdsa
  | rsa
  | other
  deriving DecidableEq, Repr

/-- A private key as the package reads it. -/
structure PrivateKey where
  encrypted : Bool
  algorithm : Algorithm
  /-- `algorithm().as_str()`. -/
  name : List UInt8
  /-- The modulus of an RSA key. -/
  modulus : Option (List UInt8)
  /-- `public_key().to_bytes()`. -/
  publicKey : Option (List UInt8)
  /-- `try_sign`, encoded. -/
  sign : Option HashAlg → List UInt8 → Option (List UInt8)

/-- What the package does: it reads keys, and verifies with the key of the host. -/
structure Package (Signature : Type) where
  fromOpenssh : String → Option PrivateKey
  decode : List UInt8 → Option (Signature × List UInt8)
  verify : List UInt8 → Signature → Bool

/-- `u8::leading_zeros`. -/
def leadingZeros (byte : UInt8) : ℕ := if byte = 0 then 8 else 7 - byte.toNat.log2

/-- SRCLINE: ssh_agent.rs:38-43 -/
def rsaBits (bytes : List UInt8) : ℕ :=
  let bytes := if bytes.head? = some 0 then bytes.drop 1 else bytes
  match bytes.head? with
  | none => 0
  | some first => bytes.length * 8 - leadingZeros first

/-- What was written to a connection: the answer to a message, and how many of its bytes the
socket took, if it took any. -/
structure Event where
  connection : ℕ
  released : Bool
  message : List UInt8
  response : List UInt8
  taken : Option ℕ
  deriving DecidableEq, Repr

/-- SRCLINE: ssh_agent.rs:46-60 -/
structure Signer where
  listening : Bool
  key : Option PrivateKey
  publicKey : List UInt8
  hostBlob : List UInt8
  user : List UInt8
  recipient : Bool
  /-- The connection with its number. -/
  connection : Option (ℕ × Connection)
  consumed : Bool
  messages : ℕ
  accepted : ℕ
  events : List Event

/-- SRCLINE: ssh_agent.rs:163-177 -/
def Signer.initial (hostBlob user : List UInt8) : Signer :=
  { listening := true, key := none, publicKey := [], hostBlob, user, recipient := false,
    connection := none, consumed := false, messages := 0, accepted := 0, events := [] }

/-- What a poll meets. -/
structure Env where
  live : Bool
  recipientAlive : Bool
  accept : Accept
  accepted : ℕ
  now : ℕ
  answered : ℕ
  received : Received
  /-- The control runs the action. -/
  runs : Bool
  /-- In the action: the recipient is alive, it is the peer, and time remains. -/
  stillAlive : Bool
  stillPeer : Bool
  remains : Bool
  /-- The result that the control returns. -/
  result : Bool
  /-- How many bytes the socket takes; `none` if the write fails. -/
  taken : Option ℕ

section Calls

variable {Signature : Type} (package : Package Signature)

/-- The keys that an agent answers with. -/
def keysOf (key : Option PrivateKey) : Keys Signature where
  decode := package.decode
  verify := package.verify
  rsa := key.any fun key => key.modulus.isSome
  algorithm := (key.map PrivateKey.name).getD []
  sign := fun hash data => key.bind fun key => key.sign hash data

variable (s : Signer) (env : Env)

/-- The socket took the whole response. -/
def Event.whole (e : Event) : Bool := e.taken = some (framed e.response).length

/-- The agent without its key, its numbers and its history. -/
def Signer.agent : Agent :=
  { listening := s.listening, key := s.key.isSome, publicKey := s.publicKey, hostBlob := s.hostBlob,
    user := s.user, recipient := s.recipient, connection := s.connection.map Prod.snd,
    consumed := s.consumed, messages := s.messages,
    written := (s.events.filter Event.whole).map fun e => framed e.response }

/-- The answer to a message: `[5]` if the message is refused.
SRCLINE: ssh_agent.rs:384-385 -/
def Signer.reply (message : List UInt8) (session : Option (List UInt8)) : Reply :=
  s.agent.reply (keysOf package s.key) message session

def Signer.log (event : Event) : Signer := { s with events := s.events ++ [event] }

/-- SRCLINE: ssh_agent.rs:189-219 -/
def Signer.install (text : String) : Signer × Bool :=
  if s.key.isSome || s.consumed || text.isEmpty || decide (64 * 1024 < text.utf8ByteSize) ||
      text.toList.contains (Char.ofNat 0) then (s, false)
  else match package.fromOpenssh text with
    | none => (s, false)
    | some key =>
      if key.encrypted || key.algorithm = .other then (s, false)
      else if key.modulus.any fun modulus => rsaBits modulus < 2048 || decide (8192 < rsaBits modulus) then
        (s, false)
      else match key.publicKey with
        | none => (s, false)
        | some publicKey => ({ s with publicKey, key := some key }, true)

/-- `Agent::recipient`.
SRCLINE: ssh_agent.rs:220-226 -/
def Signer.setRecipient : Signer × Bool :=
  if s.recipient || s.consumed then (s, false) else ({ s with recipient := true }, true)

/-- SRCLINE: ssh_agent.rs:278-283 -/
def Signer.close : Signer :=
  { s with key := none, connection := none, listening := false, recipient := false, consumed := true }

/-- The action that the control runs for a signature.
SRCLINE: ssh_agent.rs:391-404 -/
def Signer.action (number : ℕ) (message response : List UInt8) : Signer :=
  if !env.stillAlive || !env.stillPeer || !env.remains then s
  else { s with consumed := true, key := none }.log ⟨number, true, message, response, env.taken⟩

/-- The answer to one message.
SRCLINE: ssh_agent.rs:382-417 -/
def Signer.respond (number : ℕ) (connection : Connection) (message rest : List UInt8) : Signer × Bool :=
  let reply := s.reply package message connection.session
  if reply.signing then
    let s := if env.runs then s.action env number message reply.response else s
    (s.close, env.result)
  else
    let s := s.log ⟨number, false, message, reply.response, env.taken⟩
    if env.taken = some (framed reply.response).length then
      ({ s with connection := some (number, {
          input := rest, session := reply.session, deadline := env.answered + IO_TIMEOUT }) }, true)
    else (s.close, true)

/-- What is done with the buffered bytes.
SRCLINE: ssh_agent.rs:364-383 -/
def Signer.process (number : ℕ) (connection : Connection) : Signer × Bool :=
  let input := connection.input
  if input.length < 4 then ({ s with connection := some (number, connection) }, true)
  else if header input = 0 || decide (MAX_FRAME < header input) || decide (MAX_FRAME + 4 < input.length) then
    (s.close, true)
  else if input.length < header input + 4 then ({ s with connection := some (number, connection) }, true)
  else
    let s := { s with messages := s.messages + 1 }
    if MAX_MESSAGES < s.messages then (s.close, true)
    else s.respond package env number connection ((input.drop 4).take (header input))
      (input.drop (header input + 4))

/-- SRCLINE: ssh_agent.rs:335-363 -/
def Signer.serve (number : ℕ) (connection : Connection) : Signer × Bool :=
  if connection.deadline ≤ env.now then (s.close, true)
  else if complete connection.input then s.process package env number connection
  else match env.received with
    | .bytes chunk => s.process package env number { connection with input := connection.input ++ chunk }
    | .wouldBlock => s.process package env number connection
    | .eof => (s.close, true)
    | .failed => (s.close, true)

/-- SRCLINE: ssh_agent.rs:301-338 -/
def Signer.poll : Signer × Bool :=
  if s.consumed then (s, true)
  else if !env.live || !(s.recipient && env.recipientAlive) then (s.close, true)
  else match s.connection with
    | some (number, connection) => { s with connection := none }.serve package env number connection
    | none =>
      if s.listening then
        match env.accept with
        | .peer true true =>
          { s with accepted := s.accepted + 1 }.serve package env s.accepted
            ⟨[], none, env.accepted + IO_TIMEOUT⟩
        | .peer false _ => (s, true)
        | .peer true false => (s, false)
        | .wouldBlock => (s, true)
        | .failed => (s.close, false)
      else (s, true)

/-! ## Runs -/

inductive Call where
  | install (text : String)
  | recipient
  | poll (env : Env)
  | close

/-- One call; `false` is an error. -/
def Signer.step (s : Signer) : Call → Signer × Bool
  | .install text => s.install package text
  | .recipient => s.setRecipient
  | .poll env => s.poll package env
  | .close => (s.close, true)

def Signer.run (s : Signer) (calls : List Call) : Signer :=
  calls.foldl (fun s call => (s.step package call).1) s

end Calls

end VaultAccess.Model.SshSigning
