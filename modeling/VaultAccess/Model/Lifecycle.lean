import VaultAccess.Library.Runs
import VaultAccess.Model.Protocol

/-!
# The synthetic lifecycle of the companion

`companion/rust/src/lifecycle.rs`: the `Core` behind the demonstration of a local signature. A
person selects a fixture, a native worker creates, reopens or deletes a key or signs with it, and
its callback is checked against the work that is active. A call comes with the readings of both
clocks it makes; hash, keys and signatures are parameters.
-/

set_option autoImplicit false

namespace VaultAccess.Model.Companion.Lifecycle

open VaultAccess.Library VaultAccess.Library.Text

/-- The packages the module calls: `sha2`, `p256` and its `ecdsa`. -/
structure Packages where
  sha256 : List UInt8 → Vector UInt8 32
  fromSec1Bytes : List UInt8 → Bool
  fromDer : List UInt8 → Bool
  verify : List UInt8 → List UInt8 → List UInt8 → Bool

/-- SRCLINE: api/mod.rs:8-15 -/
inductive Operation where
  | create
  | reopen
  | delete
  | sign
  | noInteraction
  deriving DecidableEq, Repr

/-- SRCLINE: api/mod.rs:17-33; `unsafeSeen` is `Unsafe`. -/
inductive Outcome where
  | ready
  | created
  | reopened
  | deleted
  | verified
  | interactionRequired
  | cancelled
  | expired
  | unavailable
  | missingKey
  | failed
  | unsafeSeen
  | rejected
  | busy
  deriving DecidableEq, Repr

/-- SRCLINE: api/mod.rs:35-41 -/
inductive Invalidation where
  | cancel
  | selection
  | sleep
  | close
  deriving DecidableEq, Repr

/-- SRCLINE: api/mod.rs:44-49 -/
structure Fixture where
  id : ℕ
  title : String
  detail : String
  deriving DecidableEq, Repr

/-- SRCLINE: api/mod.rs:51-60 -/
structure Work where
  token : ℕ
  epoch : ℕ
  operation : Operation
  fixture : ℕ
  expiresUnixMs : ℕ
  nonce : List UInt8
  keyId : List UInt8
  deriving DecidableEq, Repr

/-- SRCLINE: api/mod.rs:62-67 -/
structure Completion where
  outcome : Outcome
  publicKey : List UInt8
  signature : List UInt8
  deriving DecidableEq, Repr

/-- What `Instant::now()` and `unix_ms()` say in a call, in nanoseconds and milliseconds.
SRCLINE: lifecycle.rs:92-97 -/
structure Clock where
  now : ℕ
  unixMs : ℕ
  deriving DecidableEq, Repr

def DOMAIN : List UInt8 := bytes "dev.vaultwarden.companion.synthetic.v1"
def u32Max : ℕ := 4294967295
def u64Max : ℕ := 18446744073709551615

/-- 55 seconds. -/
def REVIEW_TTL : ℕ := 55000000000

/-- SRCLINE: lifecycle.rs:9-26 -/
def fixture : ℕ → Option Fixture
  | 1 => some ⟨1, "Synthetic request one",
      "Demonstrate a local signature only. No vault, provider or execution."⟩
  | 2 => some ⟨2, "Synthetic request two",
      "Demonstrate another fresh signature only. No vault, provider or execution."⟩
  | _ => none

/-- `u64::to_be_bytes`. -/
def toBeBytes64 (n : ℕ) : List UInt8 := toBeBytes (n / 4294967296) ++ toBeBytes n

/-- SRCLINE: lifecycle.rs:28-53 -/
def transcript (work : Work) : Except String (List UInt8) :=
  match fixture work.fixture with
  | none => .error "unknown fixture"
  | some fixture =>
    if work.nonce.length ≠ 32 ∨ work.keyId.length ≠ 32 then .error "invalid binding"
    else .ok ([DOMAIN, bytes "sign", toBeBytes work.fixture, bytes fixture.title,
      bytes fixture.detail, toBeBytes work.epoch, toBeBytes work.token,
      toBeBytes64 work.expiresUnixMs, work.nonce, work.keyId].flatMap fun field =>
        toBeBytes field.length ++ field)

/-- SRCLINE: lifecycle.rs:55-60 -/
structure Active where
  work : Work
  invalidated : Bool
  deadline : ℕ
  transcript : List UInt8
  deriving DecidableEq, Repr

/-- SRCLINE: lifecycle.rs:62-74 -/
structure Core where
  selected : ℕ
  epoch : ℕ
  nextToken : ℕ
  reviewed : Option (ℕ × ℕ)
  key : Option (List UInt8)
  active : Option Active
  verified : ℕ
  blocked : ℕ
  unsafeObserved : Bool
  outcome : Outcome
  deriving DecidableEq, Repr

/-- SRCLINE: lifecycle.rs:76-90 -/
def Core.default : Core where
  selected := 1
  epoch := 0
  nextToken := 0
  reviewed := none
  key := none
  active := none
  verified := 0
  blocked := 0
  unsafeObserved := false
  outcome := .ready

/-- `u32::saturating_add(1)`. -/
def saturatingNext (n : ℕ) : ℕ := min (n + 1) u32Max

/-- The deadlines of a review made now. -/
def deadlines (clock : Clock) : ℕ × ℕ :=
  (clock.now + REVIEW_TTL, min (clock.unixMs + 55000) u64Max)

/-- SRCLINE: lifecycle.rs:202-210 -/
def Core.invalidate (core : Core) (_ : Invalidation) : Core :=
  { core with
    reviewed := none
    epoch := saturatingNext core.epoch
    active := core.active.map fun active => { active with invalidated := true }
    outcome := .cancelled }

/-- SRCLINE: lifecycle.rs:100-112 -/
def Core.select (core : Core) (id : ℕ) (clock : Clock) : Except String Unit × Core :=
  if (fixture id).isNone then (.error "unknown fixture", core)
  else (.ok (), { core.invalidate .selection with
    selected := id
    reviewed := some (deadlines clock)
    outcome := .ready })

/-- Whether a review is recent and a signature is allowed.
SRCLINE: lifecycle.rs:115-118, 133 -/
def Core.canSign (core : Core) (clock : Clock) : Bool :=
  core.active.isNone && core.key.isSome && !core.unsafeObserved &&
    core.reviewed.any fun (deadline, wall) => decide (clock.now < deadline) && decide (clock.unixMs < wall)

def Operation.signing : Operation → Bool
  | sign | noInteraction => true
  | create | reopen | delete => false

/-- SRCLINE: lifecycle.rs:140-200 -/
def Core.begin (P : Packages) (core : Core) (operation : Operation) (clock : Clock)
    (random : Option (Vector UInt8 32)) : Except String Work × Core :=
  if core.active.isSome then (.error "native worker still active", core)
  else if operation.signing && !core.canSign clock then
    (.error "fresh review and retained key required", core)
  else if operation = .create && core.key.isSome then
    (.error "delete the existing test key explicitly", core)
  else if u32Max < core.nextToken + 1 then (.error "attempt limit reached", core)
  else
    let core := { core with nextToken := core.nextToken + 1 }
    match random with
    | none => (.error "random source unavailable", core)
    | some nonce =>
      let review := if operation.signing then core.reviewed else some (deadlines clock)
      let core := if operation.signing then { core with reviewed := none } else core
      match review with
      | none => (.error "review required", core)
      | some (deadline, wall) =>
        let work : Work :=
          { token := core.nextToken
            epoch := core.epoch
            operation := operation
            fixture := core.selected
            expiresUnixMs := wall
            nonce := nonce.toList
            keyId := (core.key.map fun key => (P.sha256 key).toList).getD (List.replicate 32 0) }
        match Lifecycle.transcript work with
        | .error e => (.error e, core)
        | .ok data =>
          (.ok work, { core with
            active := some { work := work, invalidated := false, deadline := deadline, transcript := data } })

/-- A public key has 65 bytes, begins with a 4 and lies on the curve. -/
def validKey (P : Packages) (publicKey : List UInt8) : Bool :=
  publicKey.length = 65 && publicKey.head? = some 4 && P.fromSec1Bytes publicKey

/-- What a signature must satisfy under the retained key.
SRCLINE: lifecycle.rs:272-292 -/
def Core.verifies (P : Packages) (core : Core) (active : Active) (completion : Completion) : Bool :=
  completion.publicKey.isEmpty && core.key.any fun key =>
    P.fromSec1Bytes key && P.fromDer completion.signature &&
      P.verify key active.transcript completion.signature

/-- SRCLINE: lifecycle.rs:225-303 -/
def Core.complete (P : Packages) (core : Core) (active : Active) (completion : Completion)
    (clock : Clock) : Outcome × Core :=
  let operation := active.work.operation
  if completion.outcome = .unsafeSeen then (.unsafeSeen, core)
  else if operation = .noInteraction ∧ completion.signature ≠ [] then (.unsafeSeen, core)
  else if 72 < completion.signature.length ∨ 65 < completion.publicKey.length then (.rejected, core)
  else if operation = .delete ∧ (completion.outcome = .deleted ∨ completion.outcome = .missingKey) then
    (.deleted, { core with key := none, verified := 0, blocked := 0, reviewed := none })
  else if (operation = .create ∧ completion.outcome = .created) ∨
      (operation = .reopen ∧ completion.outcome = .reopened) then
    if !validKey P completion.publicKey then (.rejected, core)
    else if core.key.any fun key => decide (key ≠ completion.publicKey) then (.rejected, core)
    else if operation = .reopen ∧ active.invalidated then (.cancelled, core)
    else
      let core := { core with key := some completion.publicKey }
      (completion.outcome, if operation = .create then { core with verified := 0, blocked := 0 } else core)
  else if active.invalidated ∨ active.work.epoch ≠ core.epoch then (.cancelled, core)
  else if active.deadline ≤ clock.now ∨ active.work.expiresUnixMs ≤ clock.unixMs then (.expired, core)
  else match operation, completion.outcome with
    | .sign, .verified =>
      if core.verifies P active completion then
        (.verified, { core with verified := saturatingNext core.verified })
      else (.rejected, core)
    | .noInteraction, .interactionRequired =>
      (.interactionRequired, { core with blocked := saturatingNext core.blocked })
    | _, .cancelled => (.cancelled, core)
    | _, .unavailable => (.unavailable, core)
    | _, .missingKey => (.missingKey, core)
    | _, .failed => (.failed, core)
    | _, _ => (.rejected, core)

/-- The active work that a callback names. -/
def Core.matching (core : Core) (token epoch : ℕ) : Option Active :=
  core.active.filter fun active => active.work.token = token ∧ active.work.epoch = epoch

/-- SRCLINE: lifecycle.rs:212-223 -/
def Core.finish (P : Packages) (core : Core) (token epoch : ℕ) (completion : Completion)
    (clock : Clock) : Core :=
  match core.matching token epoch with
  | none => core
  | some active =>
    let (outcome, core) := Core.complete P { core with active := none } active completion clock
    { core with
      outcome := outcome
      unsafeObserved := core.unsafeObserved || decide (outcome = .unsafeSeen) }

/-! ## Runs -/

inductive Call where
  | select (id : ℕ) (clock : Clock)
  | begin (operation : Operation) (clock : Clock) (random : Option (Vector UInt8 32))
  | invalidate (reason : Invalidation)
  | finish (token epoch : ℕ) (completion : Completion) (clock : Clock)

inductive Answer where
  | selected (result : Except String Unit)
  | begun (result : Except String Work)
  | done

def Core.step (P : Packages) (core : Core) : Call → Answer × Core
  | .select id clock =>
    let (result, core) := core.select id clock
    (.selected result, core)
  | .begin operation clock random =>
    let (result, core) := core.begin P operation clock random
    (.begun result, core)
  | .invalidate reason => (.done, core.invalidate reason)
  | .finish token epoch completion clock => (.done, core.finish P token epoch completion clock)

/-- The entries of a list of calls from the start. -/
def Core.run (P : Packages) (calls : List Call) : List (Library.Entry Core Call Answer) :=
  Library.trace (Core.step P) Core.default calls

end VaultAccess.Model.Companion.Lifecycle
