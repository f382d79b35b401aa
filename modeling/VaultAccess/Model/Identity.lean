import VaultAccess.Library.Documents
import VaultAccess.Model.Machine
import VaultAccess.Model.Protocol

/-!
# The registry of approval clients

`src/adapters/companion_identity.rs`: the file of enrolled and revoked approval clients,
their administrators and approval keys. The file is a JSON document; its text and the
document are not told apart, so that reading it is decoding the document and the reader's
checks, and writing it is the document with the size of its text. What the file system
does to a write is part of the operation.
-/

set_option autoImplicit false

namespace VaultAccess.Model.Identity

open VaultAccess.Library VaultAccess.Library.Text

def MAX_IDENTITIES : ℕ := 64
def MAX_RETIRED_KEYS : ℕ := 256
def MAX_BIOMETRIC_AUDIT : ℕ := 64
def MAX_REGISTRY_BYTES : ℕ := 65536
def REGISTRY_VERSION : UInt8 := 3
def PUBLIC_KEY_LEN : ℕ := 65

/-! ## Data -/

/-- SRCLINE: companion_identity.rs:39-43 -/
structure EnrolledCompanion where
  fingerprint : String
  label : String
  deriving DecidableEq, Repr

/-- SRCLINE: companion_identity.rs:66-73 -/
structure BiometricEnrollment where
  fingerprint : String
  keyId : String
  publicKey : String
  enrolledGeneration : UInt64
  deriving DecidableEq, Repr

/-- SRCLINE: companion_identity.rs:98-105 -/
inductive IdentityAction where
  | grantedAdministrator
  | revoked
  | biometricEnrolled
  | biometricRevoked
  deriving DecidableEq, Repr

/-- SRCLINE: companion_identity.rs:84-97 -/
structure IdentityAudit where
  fingerprint : String
  actor : String
  action : IdentityAction
  keyId : Option String
  deriving DecidableEq, Repr

/-- SRCLINE: companion_identity.rs:44-64 -/
structure Registry where
  version : UInt8
  identities : List EnrolledCompanion
  revoked : List EnrolledCompanion
  administrators : List String
  audit : List IdentityAudit
  biometric : List BiometricEnrollment
  retiredBiometricKeys : List String
  deriving DecidableEq, Repr

/-- SRCLINE: companion_identity.rs:106-110 -/
def IdentityAction.biometric : IdentityAction → Bool
  | biometricEnrolled | biometricRevoked => true
  | grantedAdministrator | revoked => false

def IdentityAction.wire : IdentityAction → String
  | grantedAdministrator => "granted_administrator"
  | revoked => "revoked"
  | biometricEnrolled => "biometric_enrolled"
  | biometricRevoked => "biometric_revoked"

/-! ## The document -/

def EnrolledCompanion.toJson (entry : EnrolledCompanion) : Json :=
  .obj [("fingerprint", .str entry.fingerprint), ("label", .str entry.label)]

def BiometricEnrollment.toJson (entry : BiometricEnrollment) : Json :=
  .obj [("fingerprint", .str entry.fingerprint), ("key_id", .str entry.keyId),
    ("public_key", .str entry.publicKey), ("enrolled_generation", .int entry.enrolledGeneration.toNat)]

/-- `key_id` is left out when there is none. -/
def IdentityAudit.toJson (entry : IdentityAudit) : Json :=
  .obj ([("fingerprint", .str entry.fingerprint), ("actor", .str entry.actor),
    ("action", .str entry.action.wire)] ++
    match entry.keyId with
    | none => []
    | some keyId => [("key_id", .str keyId)])

/-- The two lists of version 3 are left out when they are empty. -/
def Registry.toJson (registry : Registry) : Json :=
  .obj ([("version", .int registry.version.toNat),
    ("identities", .arr (registry.identities.map EnrolledCompanion.toJson)),
    ("revoked", .arr (registry.revoked.map EnrolledCompanion.toJson)),
    ("administrators", .arr (registry.administrators.map .str)),
    ("audit", .arr (registry.audit.map IdentityAudit.toJson))] ++
    (if registry.biometric.isEmpty then []
      else [("biometric", .arr (registry.biometric.map BiometricEnrollment.toJson))]) ++
    (if registry.retiredBiometricKeys.isEmpty then []
      else [("retired_biometric_keys", .arr (registry.retiredBiometricKeys.map .str))]))

def EnrolledCompanion.ofJson (document : Json) : Option EnrolledCompanion := do
  let members ← document.closed ["fingerprint", "label"]
  let fingerprint ← Json.required "fingerprint" members Json.readString
  let label ← Json.required "label" members Json.readString
  pure { fingerprint, label }

def BiometricEnrollment.ofJson (document : Json) : Option BiometricEnrollment := do
  let members ← document.closed ["fingerprint", "key_id", "public_key", "enrolled_generation"]
  let fingerprint ← Json.required "fingerprint" members Json.readString
  let keyId ← Json.required "key_id" members Json.readString
  let publicKey ← Json.required "public_key" members Json.readString
  let generation ← Json.required "enrolled_generation" members (Json.readNat u64Size)
  pure { fingerprint, keyId, publicKey, enrolledGeneration := UInt64.ofNat generation }

def IdentityAction.ofJson (document : Json) : Option IdentityAction := do
  let name ← document.readString
  [grantedAdministrator, revoked, biometricEnrolled, biometricRevoked].find? (·.wire = name)

def IdentityAudit.ofJson (document : Json) : Option IdentityAudit := do
  let members ← document.closed ["fingerprint", "actor", "action", "key_id"]
  let fingerprint ← Json.required "fingerprint" members Json.readString
  let actor ← Json.required "actor" members Json.readString
  let action ← Json.required "action" members IdentityAction.ofJson
  let keyId ← Json.defaulted "key_id" members (Json.readOption Json.readString) none
  pure { fingerprint, actor, action, keyId }

def Registry.ofJson (document : Json) : Option Registry := do
  let members ← document.closed ["version", "identities", "revoked", "administrators", "audit",
    "biometric", "retired_biometric_keys"]
  let version ← Json.required "version" members (Json.readNat 256)
  let identities ← Json.required "identities" members (Json.readList EnrolledCompanion.ofJson)
  let revoked ← Json.defaulted "revoked" members (Json.readList EnrolledCompanion.ofJson) []
  let administrators ← Json.defaulted "administrators" members (Json.readList Json.readString) []
  let audit ← Json.defaulted "audit" members (Json.readList IdentityAudit.ofJson) []
  let biometric ← Json.defaulted "biometric" members (Json.readList BiometricEnrollment.ofJson) []
  let retiredBiometricKeys ←
    Json.defaulted "retired_biometric_keys" members (Json.readList Json.readString) []
  pure { version := UInt8.ofNat version, identities, revoked, administrators, audit, biometric,
         retiredBiometricKeys }

/-! ## Reading -/

/-- SRCLINE: companion_identity.rs:183-188 -/
def validFingerprint (value : String) : Bool :=
  value.utf8ByteSize = 64 && value.toList.all isLowerHex

/-- SRCLINE: companion_identity.rs:505-507 -/
def validLabel (label : String) : Bool :=
  !label.isEmpty && decide (label.utf8ByteSize ≤ 128) && !label.toList.any isControl

/-- SRCLINE: approval_v2.rs:73-75 -/
def validPublicKey (publicKey : List UInt8) : Bool :=
  publicKey.length = PUBLIC_KEY_LEN && publicKey.head? = some 0x04

/-- SRCLINE: approval_v2.rs:69-71 -/
def keyIdOf (E : Externals) (publicKey : List UInt8) : String := hexSha256 E publicKey

/-- SRCLINE: companion_identity.rs:74-83 -/
def BiometricEnrollment.decoded (E : Externals) (entry : BiometricEnrollment) : Option (List UInt8) := do
  let key ← decodeUrlSafe entry.publicKey
  if validPublicKey key && keyIdOf E key = entry.keyId then some key else none

def Registry.companions (registry : Registry) : List EnrolledCompanion :=
  registry.identities ++ registry.revoked

def Registry.enabled (registry : Registry) (fingerprint : String) : Bool :=
  registry.identities.any (·.fingerprint = fingerprint)

/-- An audit entry the reader accepts.
SRCLINE: companion_identity.rs:243-248 -/
def IdentityAudit.valid (entry : IdentityAudit) : Bool :=
  validFingerprint entry.fingerprint &&
    (entry.actor = "local_owner" || validFingerprint entry.actor) &&
    entry.action.biometric = entry.keyId.isSome && entry.keyId.all validFingerprint

/-- SRCLINE: companion_identity.rs:255-281 -/
def Registry.validBiometric (E : Externals) (registry : Registry) : Bool :=
  if registry.version < 3 then
    registry.biometric.isEmpty && registry.retiredBiometricKeys.isEmpty &&
      !registry.audit.any (·.action.biometric)
  else
    decide (registry.retiredBiometricKeys.length ≤ MAX_RETIRED_KEYS) &&
      registry.retiredBiometricKeys.all validFingerprint &&
      decide (registry.retiredBiometricKeys ++ registry.biometric.map (·.keyId)).Nodup &&
      decide (registry.biometric.map (·.fingerprint)).Nodup &&
      registry.biometric.all fun entry =>
        registry.enabled entry.fingerprint && (entry.decoded E).isSome

/-- The reader's checks.
SRCLINE: companion_identity.rs:215-253 -/
def Registry.valid (E : Externals) (registry : Registry) : Bool :=
  (decide (1 ≤ registry.version) && decide (registry.version ≤ REGISTRY_VERSION)) &&
    (registry.version ≠ 1 || (registry.revoked.isEmpty && registry.administrators.isEmpty &&
      registry.audit.isEmpty)) &&
    decide (registry.companions.length ≤ MAX_IDENTITIES) &&
    registry.companions.all (fun entry => validFingerprint entry.fingerprint && validLabel entry.label) &&
    decide (registry.companions.map (·.fingerprint)).Nodup &&
    decide registry.administrators.Nodup && registry.administrators.all registry.enabled &&
    decide ((registry.audit.filter (!·.action.biometric)).length ≤ MAX_IDENTITIES * 2) &&
    decide ((registry.audit.filter (·.action.biometric)).length ≤ MAX_BIOMETRIC_AUDIT) &&
    registry.audit.all IdentityAudit.valid && registry.validBiometric E

/-- The registry in a file.
SRCLINE: companion_identity.rs:211-254 -/
def readRegistry (E : Externals) (file : Option Json) : Except SessionError Registry :=
  match file with
  | none => .error .backendUnavailable
  | some document =>
    if MAX_REGISTRY_BYTES < document.size then .error .backendUnavailable
    else
      match Registry.ofJson document with
      | none => .error .backendUnavailable
      | some registry => if registry.valid E then .ok registry else .error .backendUnavailable

/-! ## Writing -/

/-- SRCLINE: companion_identity.rs:577-589 -/
def Registry.stamped (registry : Registry) : Registry :=
  { registry with
    version := if registry.biometric.isEmpty && registry.retiredBiometricKeys.isEmpty &&
      !registry.audit.any (·.action.biometric) then 2 else 3 }

/-- SRCLINE: companion_identity.rs:380-386 -/
def Registry.forgetOldestRetired (registry : Registry) : Registry :=
  { registry with
    retiredBiometricKeys :=
      registry.retiredBiometricKeys.drop (registry.retiredBiometricKeys.length - MAX_RETIRED_KEYS) }

/-- The trimming loop.
SRCLINE: companion_identity.rs:560-574 -/
def Registry.trim (registry : Registry) : Registry :=
  if registry.stamped.toJson.size ≤ MAX_REGISTRY_BYTES then registry.stamped
  else
    match _holdest : registry.audit.findIdx? (·.action.biometric) with
    | some oldest => Registry.trim { registry with audit := registry.audit.eraseIdx oldest }
    | none =>
      match _hretired : registry.retiredBiometricKeys with
      | [] => registry.stamped
      | _ :: rest => Registry.trim { registry with retiredBiometricKeys := rest }
termination_by registry.audit.length + registry.retiredBiometricKeys.length
decreasing_by
  · have hlt := (List.findIdx?_eq_some_iff_getElem.mp _holdest).1
    simp only [List.length_eraseIdx, hlt, if_true]
    omega
  · simp only [_hretired, List.length_cons]
    omega

/-- The registry whose text is written.
SRCLINE: companion_identity.rs:551-575 -/
def Registry.trimTouchIdHousekeeping (registry : Registry) : Registry :=
  registry.forgetOldestRetired.trim

/-- What the file system does to an operation: it refuses the directory, the lock or the
file before anything is read; the write fails and the file stays; the file is replaced but
its directory is not synced; or all of it completes. -/
inductive Disk where
  | denied
  | fails
  | renames
  | completes
  deriving DecidableEq, Repr

/-- SRCLINE: companion_identity.rs:590-614 -/
def persistRegistry (disk : Disk) (file : Option Json) (registry : Registry) :
    Except SessionError Unit × Option Json :=
  let document := registry.trimTouchIdHousekeeping.toJson
  if MAX_REGISTRY_BYTES < document.size then (.error .backendUnavailable, file)
  else
    match disk with
    | .denied | .fails => (.error .backendUnavailable, file)
    | .renames => (.error .backendUnavailable, some document)
    | .completes => (.ok (), some document)

/-! ## Operations -/

/-- Who acts: the local owner, or an approval client by its fingerprint. -/
structure Actor where
  text : String
  valid : text = "local_owner" ∨ validFingerprint text = true

def Actor.localOwner : Actor := { text := "local_owner", valid := Or.inl rfl }

/-- `swap_remove`: the last element takes the place of the removed one. -/
def swapRemove {α : Type} (l : List α) (i : ℕ) : List α :=
  match (l.drop (i + 1)).getLast? with
  | none => l.take i
  | some last => l.take i ++ last :: (l.drop (i + 1)).dropLast

/-- SRCLINE: companion_identity.rs:370-378 -/
def Registry.retireBiometric (registry : Registry) (fingerprint : String) : Option String × Registry :=
  match registry.biometric.findIdx? (·.fingerprint = fingerprint) with
  | none => (none, registry)
  | some position =>
    match registry.biometric[position]? with
    | none => (none, registry)
    | some old =>
      (some old.keyId, { registry with
        biometric := swapRemove registry.biometric position
        retiredBiometricKeys := registry.retiredBiometricKeys ++ [old.keyId] })

/-- SRCLINE: companion_identity.rs:387-412 -/
def Registry.biometricAudit (registry : Registry) (fingerprint actor : String)
    (action : IdentityAction) (keyId : String) : Registry :=
  let audit := registry.audit ++ [{ fingerprint, actor, action, keyId := some keyId }]
  { registry with
    audit :=
      if MAX_BIOMETRIC_AUDIT < (audit.filter (·.action.biometric)).length then
        match audit.findIdx? (·.action.biometric) with
        | none => audit
        | some oldest => audit.eraseIdx oldest
      else audit }

/-- The registry a first enrollment starts from.
SRCLINE: companion_identity.rs:521-535 -/
def Registry.initial : Registry where
  version := REGISTRY_VERSION
  identities := []
  revoked := []
  administrators := []
  audit := []
  biometric := []
  retiredBiometricKeys := []

def readOrInitial (E : Externals) (file : Option Json) : Except SessionError Registry :=
  match file with
  | none => .ok .initial
  | some _ => readRegistry E file

/-- An operation: the registry is read, changed and, where it is another one, written. -/
def update {α : Type} (disk : Disk) (file : Option Json) (read : Except SessionError Registry)
    (change : Registry → Except SessionError (α × Option Registry)) :
    Except SessionError α × Option Json :=
  match read with
  | .error error => (.error error, file)
  | .ok registry =>
    match change registry with
    | .error error => (.error error, file)
    | .ok (value, none) => (.ok value, file)
    | .ok (value, some registry) =>
      Prod.map (·.map fun _ => value) id (persistRegistry disk file registry)

/-- SRCLINE: companion_identity.rs:635-649 -/
def Registry.enroll (registry : Registry) (fingerprint label : String) :
    Except SessionError (String × Option Registry) :=
  if registry.companions.any (·.fingerprint = fingerprint) ||
      decide (MAX_IDENTITIES ≤ registry.companions.length) then .error .invalidRequest
  else
    .ok (fingerprint,
      some { registry with identities := registry.identities ++ [{ fingerprint, label }] })

/-- `leaf` is the first certificate of the chain, or the error that reading the chain or
its verification by the CA ends with.
SRCLINE: companion_identity.rs:616-651 -/
def enroll (E : Externals) (disk : Disk) (file : Option Json) (leaf : Except SessionError (List UInt8))
    (label : String) : Except SessionError String × Option Json :=
  if !validLabel label then (.error .invalidRequest, file)
  else if disk = .denied then (.error .backendUnavailable, file)
  else
    match leaf with
    | .error error => (.error error, file)
    | .ok leaf =>
      update disk file (readOrInitial E file) fun registry => registry.enroll (hexSha256 E leaf) label

/-- SRCLINE: companion_identity.rs:453-472 -/
def Registry.grantAdministrator (registry : Registry) (fingerprint : String) :
    Except SessionError (Unit × Option Registry) :=
  if !registry.enabled fingerprint then .error .invalidRequest
  else if registry.administrators.contains fingerprint then .ok ((), none)
  else
    .ok ((), some { registry with
      administrators := registry.administrators ++ [fingerprint]
      audit := registry.audit ++
        [{ fingerprint, actor := "local_owner", action := .grantedAdministrator, keyId := none }] })

/-- SRCLINE: companion_identity.rs:450-473 -/
def grantAdministrator (E : Externals) (disk : Disk) (file : Option Json) (fingerprint : String) :
    Except SessionError Unit × Option Json :=
  if disk = .denied then (.error .backendUnavailable, file)
  else update disk file (readRegistry E file) (·.grantAdministrator fingerprint)

/-- SRCLINE: companion_identity.rs:480-503 -/
def Registry.revoke (registry : Registry) (fingerprint : String) (actor : Actor) :
    Except SessionError (Unit × Option Registry) :=
  if registry.revoked.any (·.fingerprint = fingerprint) then .ok ((), none)
  else
    match registry.identities.findIdx? (·.fingerprint = fingerprint) with
    | none => .error .invalidRequest
    | some position =>
      let registry : Registry := { registry with
        identities := registry.identities.eraseIdx position
        revoked := registry.revoked ++ (registry.identities[position]?).toList
        administrators := registry.administrators.filter (· ≠ fingerprint) }
      let registry := (registry.retireBiometric fingerprint).2
      .ok ((), some { registry with
        audit := registry.audit ++
          [{ fingerprint, actor := actor.text, action := .revoked, keyId := none }] })

/-- SRCLINE: companion_identity.rs:474-504 -/
def revokeOnline (E : Externals) (disk : Disk) (file : Option Json) (fingerprint : String)
    (actor : Actor) : Except SessionError Unit × Option Json :=
  if disk = .denied then (.error .backendUnavailable, file)
  else update disk file (readRegistry E file) (·.revoke fingerprint actor)

/-- SRCLINE: companion_identity.rs:652-658 -/
def revoke (E : Externals) (disk : Disk) (file : Option Json) (fingerprint : String) :
    Except SessionError Unit × Option Json :=
  if !validFingerprint fingerprint then (.error .invalidRequest, file)
  else revokeOnline E disk file fingerprint .localOwner

/-- SRCLINE: companion_identity.rs:318-349 -/
def Registry.enrollBiometric (registry : Registry) (fingerprint keyId publicKey : String)
    (generation : UInt64) : Except SessionError (String × Option Registry) :=
  if !registry.enabled fingerprint || registry.retiredBiometricKeys.contains keyId ||
      registry.biometric.any (·.keyId = keyId) then .error .invalidRequest
  else
    let registry := (registry.retireBiometric fingerprint).2
    let entry : BiometricEnrollment :=
      { fingerprint, keyId, publicKey, enrolledGeneration := generation }
    let registry := { registry with biometric := registry.biometric ++ [entry] }
    .ok (keyId, some (registry.biometricAudit fingerprint fingerprint .biometricEnrolled keyId))

/-- SRCLINE: companion_identity.rs:308-350 -/
def enrollBiometricOnline (E : Externals) (disk : Disk) (file : Option Json) (fingerprint : String)
    (publicKey : List UInt8) (generation : UInt64) : Except SessionError String × Option Json :=
  if !validPublicKey publicKey then (.error .invalidRequest, file)
  else if disk = .denied then (.error .backendUnavailable, file)
  else
    update disk file (readRegistry E file)
      (·.enrollBiometric fingerprint (keyIdOf E publicKey) (encodeUrlSafe publicKey) generation)

/-- SRCLINE: companion_identity.rs:356-368 -/
def Registry.revokeBiometric (registry : Registry) (fingerprint : String) (actor : Actor) :
    Except SessionError (Option String × Option Registry) :=
  match registry.retireBiometric fingerprint with
  | (none, _) => .ok (none, none)
  | (some keyId, registry) =>
    .ok (some keyId, some (registry.biometricAudit fingerprint actor.text .biometricRevoked keyId))

/-- SRCLINE: companion_identity.rs:351-369 -/
def revokeBiometricOnline (E : Externals) (disk : Disk) (file : Option Json) (fingerprint : String)
    (actor : Actor) : Except SessionError (Option String) × Option Json :=
  if disk = .denied then (.error .backendUnavailable, file)
  else update disk file (readRegistry E file) (·.revokeBiometric fingerprint actor)

/-- An operation on the registry file. -/
inductive Operation where
  | enroll (leaf : Except SessionError (List UInt8)) (label : String)
  | grantAdministrator (fingerprint : String)
  | revoke (fingerprint : String)
  | revokeOnline (fingerprint : String) (actor : Actor)
  | enrollBiometricOnline (fingerprint : String) (publicKey : List UInt8) (generation : UInt64)
  | revokeBiometricOnline (fingerprint : String) (actor : Actor)

/-- The file an operation leaves. -/
def Operation.apply (E : Externals) (file : Option Json) (step : Disk × Operation) : Option Json :=
  match step.2 with
  | .enroll leaf label => (Identity.enroll E step.1 file leaf label).2
  | .grantAdministrator fingerprint => (Identity.grantAdministrator E step.1 file fingerprint).2
  | .revoke fingerprint => (Identity.revoke E step.1 file fingerprint).2
  | .revokeOnline fingerprint actor => (Identity.revokeOnline E step.1 file fingerprint actor).2
  | .enrollBiometricOnline fingerprint publicKey generation =>
    (Identity.enrollBiometricOnline E step.1 file fingerprint publicKey generation).2
  | .revokeBiometricOnline fingerprint actor =>
    (Identity.revokeBiometricOnline E step.1 file fingerprint actor).2

/-- The file after a run of operations on an empty directory. -/
def fileAfter (E : Externals) (steps : List (Disk × Operation)) : Option Json :=
  steps.foldl (Operation.apply E) none

end VaultAccess.Model.Identity
