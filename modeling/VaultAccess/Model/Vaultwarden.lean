import VaultAccess.Model.Machine
import VaultAccess.Model.Provider
import VaultAccess.Model.SecretStorage

/-!
# The Vaultwarden backend

`selected`, `reconcile_secret`, `create_secret` and `verify_secret` of
`src/adapters/vaultwarden.rs`. What the server answers is an argument, as read and parsed
by the code before it looks at it.
-/

set_option autoImplicit false

namespace VaultAccess.Model.Vaultwarden

open VaultAccess.Library VaultAccess.Library.Text VaultAccess.Model

/-- The packages `hmac`, `aes`, `cbc` and `rsa`. A private key is told by its encoding. -/
structure Packages extends Cryptography where
  validPkcs8 : List UInt8 → Bool
  oaepSha1 : List UInt8 → List UInt8 → Option (List UInt8)
  oaepSha256 : List UInt8 → List UInt8 → Option (List UInt8)

/-- The backend of a provider; a session holds the keys of the vault. -/
structure Backend where
  server : Option String
  encryptedPrivateKey : Option String
  orgKeys : List (String × String)
  session : Option CryptoKeys
  compatible : Bool
  deriving DecidableEq

/-- What the server answers to `api/sync` and `api/ciphers/…`. -/
structure Server where
  sync : Except SessionError SyncResponse
  cipher : String → Except SessionError Cipher

/-- `if … { return Err(error); }`. -/
def demand (condition : Bool) (error : SessionError) : Except SessionError Unit :=
  if condition then .ok () else .error error

/-- `ok_or`. -/
def orElse {α : Type} (error : SessionError) : Option α → Except SessionError α
  | some value => .ok value
  | none => .error error

/-- `map_err(|_error| SessionError::BackendUnavailable)`. -/
def orUnavailable {α : Type} (x : Except String α) : Except SessionError α :=
  x.mapError fun _ => .backendUnavailable

/-- A character of an item id as `selected` checks it. -/
def looseUuidFrom : ℕ → List Char → Bool
  | _, [] => true
  | index, c :: rest =>
    (if index = 8 ∨ index = 13 ∨ index = 18 ∨ index = 23 then decide (c = '-')
      else isLowerHex c || decide ('A' ≤ c ∧ c ≤ 'F')) && looseUuidFrom (index + 1) rest

/-- SRCLINE: vaultwarden.rs:209-215 -/
def looseItemId (value : String) : Bool := value.utf8ByteSize = 36 && looseUuidFrom 0 value.toList

/-- SRCLINE: rsa_ops.rs:19-42 -/
def decryptRsa (P : Packages) (encrypted : String) (key : List UInt8) :
    Except String (List UInt8) := do
  let (kind, data) ← orFail "Invalid encrypted string format" (splitOnce '.' encrypted.toList)
  let kind ← orFail "Invalid encryption type" (parseU8 kind)
  let ciphertext ← decodeStandard "Failed to decode RSA ciphertext" data
  if kind = 4 then orFail "RSA-OAEP decryption failed" (P.oaepSha1 key ciphertext)
  else if kind = 6 then orFail "RSA-OAEP decryption failed" (P.oaepSha256 key ciphertext)
  else .error ("Unsupported RSA encryption type: " ++ toString kind)

section Backend

variable (P : Packages) (allowInsecureMac : Bool)

/-- Authenticated by its shape.
SRCLINE: vaultwarden.rs:247, 269, 282 -/
def authenticatedShape (value : String) : Bool :=
  startsWith value "2." && decide ((split '|' value.toList).length = 3)

/-- SRCLINE: crypto_keys.rs:144-148 -/
def decryptPrivateKey (keys : CryptoKeys) (encrypted : String) : Except String (List UInt8) := do
  let der ← keys.decrypt P.toCryptography allowInsecureMac encrypted
  ensureThat (P.validPkcs8 der) "Failed to parse RSA private key"
  pure der

/-- The keys of the item's organization, or the vault's.
SRCLINE: vaultwarden.rs:240-264 -/
def parentKeys (B : Backend) (keys : CryptoKeys) : Option String → Except SessionError CryptoKeys
  | none => .ok keys
  | some id => do
    let encrypted ← orElse .backendUnavailable B.encryptedPrivateKey
    demand (authenticatedShape encrypted) .backendUnavailable
    let key ← orUnavailable (decryptPrivateKey P allowInsecureMac keys encrypted)
    let wrapped ← orElse .backendUnavailable (B.orgKeys.lookup id)
    let data ← orUnavailable (decryptRsa P wrapped key)
    orUnavailable (CryptoKeys.fromSymmetricKey data)

/-- The item's own keys, or its parent's.
SRCLINE: vaultwarden.rs:265-280 -/
def ownKeys (parent : CryptoKeys) : Option String → Except SessionError CryptoKeys
  | none => .ok parent
  | some encrypted => do
    demand (authenticatedShape encrypted) .backendUnavailable
    let data ← orUnavailable (parent.decrypt P.toCryptography allowInsecureMac encrypted)
    orUnavailable (CryptoKeys.fromSymmetricKey data)

/-- SRCLINE: vaultwarden.rs:281-288 -/
def decryptField (keys : CryptoKeys) (value : String) : Except SessionError String := do
  demand (authenticatedShape value) .backendUnavailable
  orUnavailable (keys.decryptToString P.toCryptography allowInsecureMac value)

/-- Whether a field is the marker's; a marker of another operation is refused.
SRCLINE: vaultwarden.rs:302-314 -/
def matchMarker (keys : CryptoKeys) (marker name : String) (value : Option String) :
    Except SessionError ℕ :=
  if name = "vw-access" then do
    let encrypted ← orElse .backendUnavailable value
    let text ← decryptField P allowInsecureMac keys encrypted
    demand ("vw-access=" ++ text = marker) .backendUnavailable
    pure 1
  else pure 0

/-- The fields in order, with the names and how many markers were seen.
SRCLINE: vaultwarden.rs:289-316 -/
def readFields (keys : CryptoKeys) (marker : String) :
    List FieldData → List String → ℕ → List (String × Option String) →
      Except SessionError (ℕ × List (String × Option String))
  | [], _, matched, custom => .ok (matched, custom)
  | field :: fields, names, matched, custom => do
    let encrypted ← orElse .backendUnavailable field.name
    let name ← decryptField P allowInsecureMac keys encrypted
    demand (!names.contains name) .backendUnavailable
    let one ← matchMarker P allowInsecureMac keys marker name field.value
    readFields keys marker fields (name :: names) (matched + one) (custom ++ [(name, field.value)])

/-- SRCLINE: vaultwarden.rs:324-338 -/
def encryptedValue (cipher : Cipher) (custom : List (String × Option String)) :
    LoginField → Except SessionError String
  | .username => orElse .backendUnavailable cipher.getUsername
  | .password => orElse .backendUnavailable cipher.getPassword
  | .notes => orElse .backendUnavailable cipher.getNotes
  | .custom name =>
    match custom.filter fun entry => entry.1 = name with
    | [entry] => orElse .backendUnavailable entry.2
    | _ => .error .backendUnavailable

/-- One value of the item. -/
def readValue (keys : CryptoKeys) (cipher : Cipher) (custom : List (String × Option String))
    (field : LoginField) : Except SessionError String := do
  let encrypted ← encryptedValue cipher custom field
  decryptField P allowInsecureMac keys encrypted

/-- SRCLINE: vaultwarden.rs:217-221 -/
def checkNamespace (S : Server) (keys : CryptoKeys) : Option Destination → Except SessionError Unit
  | none => .ok ()
  | some d => do
    let sync ← S.sync
    orUnavailable (d.checkSync P.toCryptography allowInsecureMac sync keys false)

/-- SRCLINE: vaultwarden.rs:235-239 -/
def checkPlace (cipher : Cipher) (id : String) (keys : CryptoKeys) :
    Option Destination → Except SessionError Unit
  | none => .ok ()
  | some d => orUnavailable do
    let _ ← d.checkItem P.toCryptography allowInsecureMac cipher id keys
    pure ()

/-- SRCLINE: vaultwarden.rs:197-347 -/
def selected (B : Backend) (S : Server) (binding : CredentialBinding) :
    Except SessionError (List String) := do
  let keys ← orElse .locked B.session
  demand B.compatible .incompatible
  demand (looseItemId binding.immutableItemId && !binding.fields.isEmpty) .invalidRequest
  checkNamespace P allowInsecureMac S keys binding.namespace
  let cipher ← S.cipher binding.immutableItemId
  demand (decide (cipher.id = binding.immutableItemId) && cipher.deletedDate.isNone && cipher.isLogin)
    .backendUnavailable
  checkPlace P allowInsecureMac cipher binding.immutableItemId keys binding.namespace
  let parent ← parentKeys P allowInsecureMac B keys cipher.organizationId
  let itemKeys ← ownKeys P allowInsecureMac parent cipher.itemKey
  let (matched, custom) ← readFields P allowInsecureMac itemKeys binding.marker cipher.getFields [] 0 []
  demand (decide (matched = 1)) .backendUnavailable
  binding.fields.mapM (readValue P allowInsecureMac itemKeys cipher custom)

/-! ## Secret writes -/

/-- The backend is configured for the effect's server. -/
def serves (B : Backend) (effect : CreateEffect) : Bool :=
  decide (B.server.map trimSlashes = some (trimSlashes effect.server))

/-- SRCLINE: vaultwarden.rs:444-456 -/
def loginField (field : String) : Except SessionError LoginField :=
  if field = "password" then .ok .password
  else if field = "notes" then .ok .notes
  else orElse .invalidRequest ((customName field).map .custom)

/-- The binding of an operation to a written item. -/
def createBinding (effect : CreateEffect) (id : String) (fields : List LoginField) :
    CredentialBinding where
  «namespace» := some effect.destination
  immutableItemId := id
  fields := fields
  marker := "vw-access=" ++ effect.eligibilityMarker

/-- SRCLINE: vaultwarden.rs:429-465 -/
def reconcileSecret (B : Backend) (S : Server) (effect : CreateEffect) (id : String) :
    Except SessionError Unit := do
  demand (serves B effect) .invalidRequest
  let fields ← effect.fields.mapM loginField
  let _ ← selected P allowInsecureMac B S (createBinding effect id fields)
  pure ()

/-- SRCLINE: vaultwarden.rs:467-488 -/
def createEligible (B : Backend) (S : Server) (effect : CreateEffect) :
    Except SessionError Unit := do
  demand (B.compatible && effect.valid && serves B effect) .invalidRequest
  let keys ← orElse .locked B.session
  let sync ← S.sync
  orUnavailable (effect.destination.checkSync P.toCryptography allowInsecureMac sync keys true)

/-- The answer to the creation: none, or a status with the item it tells, if it can be read. -/
inductive PostAnswer where
  | lost
  | answered (status : UInt16) (cipher : Option Cipher)
  deriving DecidableEq

/-- What becomes of an answer.
SRCLINE: vaultwarden.rs:517-539 -/
def created : PostAnswer → Except WriteStatus String
  | .lost => .error .uncertain
  | .answered status cipher =>
    if 200 ≤ status ∧ status < 300 then
      match cipher with
      | none => .error .uncertain
      | some cipher => if validId cipher.id then .ok cipher.id else .error .uncertain
    else if status = 400 ∨ status = 401 ∨ status = 403 ∨ status = 404 ∨ status = 405 ∨ status = 422 then
      .error .failed
    else .error .uncertain

/-- `map_err(|_error| WriteStatus::Failed)`. -/
def orFailed {ε α : Type} (x : Except ε α) : Except WriteStatus α := x.mapError fun _ => .failed

/-- The posted item, with what `live` said before it is sent.
SRCLINE: vaultwarden.rs:489-540 -/
def createSecret (B : Backend) (S : Server) (draws : List (List UInt8)) (live : Bool)
    (post : EncryptedCreate → PostAnswer) (effect : CreateEffect) (input : SecretImport) :
    Except WriteStatus String := do
  orFailed (createEligible P allowInsecureMac B S effect)
  orFailed (demand (decide (input.selectors = sortTexts effect.fields)) .invalidRequest)
  let keys ← orFailed (orElse .locked B.session)
  let (encrypted, _) ← orFailed ((encryptCreate P.toCryptography keys effect.destination input
    (some effect.eligibilityMarker)).run draws)
  orFailed (demand live .invalidRequest)
  created (post encrypted)

/-- SRCLINE: vaultwarden.rs:101-124 -/
def itemResponse (B : Backend) (S : Server) (id : String) : Except SessionError Cipher := do
  let _ ← orElse .locked B.session
  demand B.compatible .incompatible
  demand (validItemId id) .invalidRequest
  S.cipher id

/-- SRCLINE: vaultwarden.rs:541-561 -/
def verifySecret (B : Backend) (S : Server) (effect : CreateEffect) (id : String)
    (input : SecretImport) : Except SessionError Unit := do
  let keys ← orElse .locked B.session
  let sync ← S.sync
  orUnavailable (effect.destination.checkSync P.toCryptography allowInsecureMac sync keys false)
  let cipher ← itemResponse B S id
  orUnavailable (verifyCreated P.toCryptography allowInsecureMac keys effect.destination id cipher
    input (some effect.eligibilityMarker))

end Backend

end VaultAccess.Model.Vaultwarden
