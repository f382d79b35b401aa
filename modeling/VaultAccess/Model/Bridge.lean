import VaultAccess.Library.Frames
import VaultAccess.Model.Machine

/-!
# The launch packet

`src/adapters/execution.rs`, `src/access/ports.rs` and
`src/adapters/supervisor/bridge.rs`: the arguments and the environment of a
child, the packet `Bridge::send` builds of them, and `Launch::parse`, with
which the helper reads it. What the kernel says about a descriptor is a
parameter.
-/

set_option autoImplicit false

namespace VaultAccess.Model.Bridge

open VaultAccess.Library VaultAccess.Library.Frames VaultAccess.Library.Text

/-! ## Arguments -/

def MAX_ARGS : ℕ := 128
def MAX_ARG_BYTES : ℕ := 32 * 1024

/-- The loop of `checked_arguments`; `CString::new` refuses a NUL and adds one at the end.
SRCLINE: execution.rs:188-199 -/
def checkedArgumentsFrom : ℕ → List String → Except ExecutionError (List (List UInt8))
  | _, [] => .ok []
  | size, arg :: rest => do
    let size := size + (arg.utf8ByteSize + 1)
    if size > MAX_ARG_BYTES then .error .invalidArguments
    if (bytes arg).contains 0 then .error .invalidArguments
    let rest ← checkedArgumentsFrom size rest
    pure ((bytes arg ++ [0]) :: rest)

/-- SRCLINE: execution.rs:184-200 -/
def checkedArguments (argv : List String) : Except ExecutionError (List (List UInt8)) :=
  if argv.isEmpty || decide (argv.length > MAX_ARGS) || argv.head?.any (·.isEmpty) then
    .error .invalidArguments
  else checkedArgumentsFrom 0 argv

/-! ## Environment -/

/-- An entry of a `ChildEnvironment`: name, equals sign, value and NUL. -/
def entry (name value : List UInt8) : List UInt8 := name ++ 61 :: value ++ [0]

def isUppercase (b : UInt8) : Bool := 65 ≤ b && b ≤ 90
def isDigit (b : UInt8) : Bool := 48 ≤ b && b ≤ 57

/-- An uppercase letter or an underscore, then also digits. -/
def nameBytes : List UInt8 → Bool
  | [] => true
  | b :: rest => (b = 95 || isUppercase b) && rest.all fun b => b = 95 || isUppercase b || isDigit b

def startsWith (value : List UInt8) (text : String) : Bool := (bytes text).isPrefixOf value

/-- The names both the provider and the helper reserve. -/
def reservedNames : List (List UInt8) :=
  ["LANG", "LC_ALL", "PATH", "IFS", "SHELL", "LD_PRELOAD", "LD_LIBRARY_PATH"].map bytes

/-- SRCLINE: ports.rs:138-154 -/
def validEnvironmentName (name : String) : Bool :=
  let name := bytes name
  !name.isEmpty && decide (name.length ≤ 128) && nameBytes name && !reservedNames.contains name &&
    !startsWith name "DYLD_" && !startsWith name "LD_" && !startsWith name "VAULTWARDEN_" &&
    !startsWith name "BITWARDEN_"

def MAX_ENTRIES : ℕ := 32
def MAX_BYTES : ℕ := 32 * 1024

def baseline : List (String × String) := [("LANG", "C"), ("LC_ALL", "C")]

/-- The loop of `from_mappings`, with the names and the entries so far.
SRCLINE: ports.rs:100-119 -/
def fromMappingsLoop : List String → List (List UInt8) → List (String × String) →
    Except ExecutionError (List (List UInt8))
  | _, entries, [] => .ok entries
  | names, entries, (name, value) :: rest =>
    if (!(name = "LANG" || name = "LC_ALL") && !validEnvironmentName name) || names.contains name ||
        (bytes value).contains 0 then .error .invalidArguments
    else
      let entries := entries ++ [entry (bytes name) (bytes value)]
      if entries.length > MAX_ENTRIES || (entries.map List.length).sum > MAX_BYTES then
        .error .invalidArguments
      else fromMappingsLoop (name :: names) entries rest

/-- `ChildEnvironment::from_mappings`; the result is its entries.
SRCLINE: ports.rs:91-126 -/
def fromMappings (mappings : List (String × String)) : Except ExecutionError (List (List UInt8)) :=
  fromMappingsLoop [] [] (baseline ++ mappings)

/-- The mappings of an execution, credential by credential: what was resolved is as many values as
the credential has mappings.
SRCLINE: application.rs:1528-1553 -/
def executionMappings : List LoginCredentialDraft → List (List String) → Option (List (String × String))
  | [], [] => some []
  | credential :: credentials, values :: resolved =>
    if values.length ≠ credential.fieldMappings.length then none
    else (executionMappings credentials resolved).map
      ((credential.fieldMappings.map (·.environment)).zip values ++ ·)
  | _, _ => none

/-! ## The packet -/

def MAGIC : List UInt8 := [86, 87, 69, 88, 1]
def TRANSFER : UInt8 := 1
def TRANSFER_SSH : UInt8 := 10
def TRANSFER_PRODUCER : UInt8 := 11
def MAX_PACKET : ℕ := 2 * 32 * 1024 + 1024

structure BridgeError where
  deriving DecidableEq, Repr

/-- SRCLINE: bridge.rs:137-147 -/
inductive BridgeState where
  | connected | transferred | ready | released | executed | outcome | failed | reaped
  deriving DecidableEq, Repr

section Descriptors

/-- What the kernel says about a descriptor: `validate_descriptor`, `validate_directory` and
`validate_producer_output`. -/
structure Kernel (Fd : Type) where
  executable : Fd → Bool
  directory : Fd → Bool
  producerOutput : Fd → Bool

/-- The executable, its arguments with their NULs, and the further descriptors. -/
structure PreparedExecutable (Fd : Type) where
  file : Fd
  argv : List (List UInt8)
  workingDirectory : Option Fd
  producerOutput : Option Fd

/-- SRCLINE: bridge.rs:498-501 -/
structure Packet (Fd : Type) where
  bytes : List UInt8
  fds : List Fd

variable {Fd : Type} (kernel : Kernel Fd)

/-- The code of a prepared executable. A producer has no working directory.
SRCLINE: bridge.rs:172-182 -/
def PreparedExecutable.code (prepared : PreparedExecutable Fd) : Except BridgeError UInt8 :=
  if prepared.producerOutput.isSome then
    if prepared.workingDirectory.isSome then .error ⟨⟩ else .ok TRANSFER_PRODUCER
  else if prepared.workingDirectory.isSome then .ok TRANSFER_SSH
  else .ok TRANSFER

/-- The bytes of a launch packet; the counts and lengths are truncated as the casts do.
SRCLINE: bridge.rs:170-192 -/
def payload (code : UInt8) (arguments environment : List (List UInt8)) : List UInt8 :=
  MAGIC ++ code :: (le 2 arguments.length ++ (le 2 environment.length ++
    (arguments ++ environment).flatMap frame))

/-- The packet `Bridge::send` hands to `sendmsg`.
SRCLINE: bridge.rs:160-208 -/
def send (state : BridgeState) (prepared : PreparedExecutable Fd) (environment : List (List UInt8)) :
    Except BridgeError (Packet Fd) := do
  if state ≠ .connected then .error ⟨⟩
  if !kernel.executable prepared.file then .error ⟨⟩
  let code ← prepared.code
  let bytes := payload code prepared.argv environment
  if bytes.length > MAX_PACKET then .error ⟨⟩
  if !prepared.workingDirectory.all kernel.directory then .error ⟨⟩
  if !prepared.producerOutput.all kernel.producerOutput then .error ⟨⟩
  pure ⟨bytes, prepared.file :: (prepared.workingDirectory.toList ++ prepared.producerOutput.toList)⟩

/-! ## The helper -/

/-- The helper rejects a packet, or it would read past the end of its buffer. -/
inductive Fault where
  | rejected
  | outOfBounds
  deriving DecidableEq, Repr

/-- A step that the helper answers with `BridgeError`. -/
def orReject {α : Type} : Option α → Except Fault α
  | some a => .ok a
  | none => .error .rejected

/-- A read without a check. -/
def orFault {α : Type} : Option α → Except Fault α
  | some a => .ok a
  | none => .error .outOfBounds

/-- SRCLINE: bridge.rs:502-509 -/
def Packet.code (packet : Packet Fd) : Except Fault UInt8 := do
  if packet.bytes.length < 6 then .error .rejected
  let magic ← orFault (slice packet.bytes 0 5)
  if magic ≠ MAGIC then .error .rejected
  orFault packet.bytes[5]?

/-- The parsed packet: the offsets of the arguments and of the environment.
SRCLINE: bridge.rs:626-630 -/
structure Launch (Fd : Type) where
  packet : Packet Fd
  arguments : List ℕ
  environment : List ℕ

/-- The state of the walk over the entries: the cursor, the offsets and the totals. -/
structure Walk where
  cursor : ℕ
  arguments : List ℕ
  environment : List ℕ
  argumentBytes : ℕ
  environmentBytes : ℕ
  deriving DecidableEq, Repr

/-- The checks of one entry.
SRCLINE: bridge.rs:671-676 -/
def validEntry (index : ℕ) (value : List UInt8) : Bool :=
  value.getLast? = some 0 && !value.dropLast.contains 0 && !(index = 0 && value.length < 2)

/-- One turn of the walk. The cursor stays inside the buffer and a length is below 2^32, so the
checked additions do not fail.
SRCLINE: bridge.rs:659-690 -/
def walkEntry (bytes : List UInt8) (argc index : ℕ) (w : Walk) : Except Fault Walk := do
  let lengthBytes ← orReject (slice bytes w.cursor (w.cursor + 4))
  let length := unle lengthBytes
  let cursor := w.cursor + 4
  let value ← orReject (slice bytes cursor (cursor + length))
  if !validEntry index value then .error .rejected
  if index ≥ argc then
    if w.environmentBytes + length > MAX_BYTES then .error .rejected
    pure
      { w with
        cursor := cursor + length
        environment := w.environment ++ [cursor]
        environmentBytes := w.environmentBytes + length }
  else
    if w.argumentBytes + length > MAX_ARG_BYTES then .error .rejected
    pure
      { w with
        cursor := cursor + length
        arguments := w.arguments ++ [cursor]
        argumentBytes := w.argumentBytes + length }

/-- The walk over `count` entries from `index` on. -/
def walk (bytes : List UInt8) (argc : ℕ) : ℕ → ℕ → Walk → Except Fault Walk
  | 0, _, w => .ok w
  | count + 1, index, w => do
    let w ← walkEntry bytes argc index w
    walk bytes argc count (index + 1) w

/-- The helper's rules for a name.
SRCLINE: bridge.rs:702-721 -/
def helperName (name : List UInt8) : Bool :=
  !name.isEmpty && decide (name.length ≤ 128) && nameBytes name && !reservedNames.contains name &&
    !startsWith name "VAULTWARDEN_" && !startsWith name "BITWARDEN_"

/-- The loop over the environment, with the names so far.
SRCLINE: bridge.rs:688-725 -/
def checkEnvironment (data : List UInt8) : ℕ → List (List UInt8) → List ℕ → Except Fault Unit
  | _, _, [] => .ok ()
  | index, names, offset :: rest => do
    let value ← orFault (cstr data offset)
    if index < 2 then
      if value ≠ bytes (if index = 0 then "LANG=C" else "LC_ALL=C") then .error .rejected
      checkEnvironment data (index + 1) names rest
    else
      if !value.contains 61 then .error .rejected
      let name := value.takeWhile (· ≠ 61)
      if !helperName name || names.contains name then .error .rejected
      checkEnvironment data (index + 1) (name :: names) rest

/-- SRCLINE: bridge.rs:631-737 -/
def parse (packet : Packet Fd) : Except Fault (Launch Fd) := do
  let code ← packet.code
  let ssh : Bool := code = TRANSFER_SSH
  let producer : Bool := code = TRANSFER_PRODUCER
  if !ssh && !producer && code ≠ TRANSFER then .error .rejected
  if packet.bytes.length < 10 then .error .rejected
  if packet.fds.length ≠ (if ssh || producer then 2 else 1) then .error .rejected
  if !(← orFault (packet.fds[0]?.map kernel.executable)) then .error .rejected
  if ssh then
    if !(← orFault (packet.fds[1]?.map kernel.directory)) then .error .rejected
  if producer then
    if !(← orFault (packet.fds[1]?.map kernel.producerOutput)) then .error .rejected
  let argc := unle (← orFault (slice packet.bytes 6 8))
  let envc := unle (← orFault (slice packet.bytes 8 10))
  if !(decide (1 ≤ argc) && decide (argc ≤ 128)) then .error .rejected
  if !(decide (2 ≤ envc) && decide (envc ≤ 32)) then .error .rejected
  let w ← walk packet.bytes argc (argc + envc) 0 ⟨10, [], [], 0, 0⟩
  if w.cursor ≠ packet.bytes.length then .error .rejected
  checkEnvironment packet.bytes 0 [] w.environment
  pure ⟨packet, w.arguments, w.environment⟩

/-- The texts at the pointers that are handed to `execve`.
SRCLINE: bridge.rs:738-744 -/
def Launch.pointers (launch : Launch Fd) (offsets : List ℕ) : List (Option (List UInt8)) :=
  offsets.map (cstr launch.packet.bytes)

end Descriptors

end VaultAccess.Model.Bridge
