import VaultAccess.Library.Canonical
import VaultAccess.Model.MachO
import VaultAccess.Model.Policy

/-!
# Encrypted items of the vault

`src/crypto/crypto_keys.rs`, what `src/models.rs` reads of an item, and
`src/secret_storage.rs`: how an item is encrypted, which one a destination is bound to, how
one of its values is selected and how a new item is compared with what was to be stored.
AES, HMAC and randomness come from packages and are parameters.
-/

set_option autoImplicit false

namespace VaultAccess.Model

open VaultAccess.Library VaultAccess.Library.Text
open VaultAccess.Model.MachO (fromUtf8)

/-- `anyhow::ensure!`. -/
def ensureThat (condition : Bool) (text : String) : Except String Unit :=
  if condition then .ok () else .error text

/-- `ok_or_else`. -/
def orFail {α : Type} (text : String) : Option α → Except String α
  | some value => .ok value
  | none => .error text

/-! ## Keys -/

/-- The packages `hmac` and `aes` with `cbc`. Decryption fails for a vector of a wrong length and
for a wrong padding. -/
structure Cryptography where
  hmac : List UInt8 → List UInt8 → List UInt8
  aesEncrypt : List UInt8 → List UInt8 → List UInt8 → List UInt8
  aesDecrypt : List UInt8 → List UInt8 → List UInt8 → Option (List UInt8)

/-- SRCLINE: crypto_keys.rs:31-34 -/
structure CryptoKeys where
  encKey : List UInt8
  macKey : List UInt8
  encKey_length : encKey.length = 32
  macKey_length : macKey.length = 32
  deriving DecidableEq

/-- SRCLINE: crypto_keys.rs:50-59 -/
def CryptoKeys.fromSymmetricKey (key : List UInt8) : Except String CryptoKeys :=
  if h : key.length = 64 then
    .ok ⟨key.take 32, key.drop 32, by rw [List.length_take]; omega, by rw [List.length_drop]; omega⟩
  else .error ("Symmetric key must be 64 bytes, got " ++ toString key.length)

/-- SRCLINE: crypto_keys.rs:130-136 -/
def requireAuthenticated (value : String) : Except String Unit :=
  ensureThat (startsWith value "2." && (split '|' value.toList).length = 3)
    "authenticated ciphertext required"

/-- `u8::from_str`. -/
def parseU8 (text : List Char) : Option ℕ :=
  let digits := match text with
    | '+' :: digits => digits
    | digits => digits
  let value : ℕ := digits.foldl (fun value c => 10 * value + (c.toNat - 48)) 0
  if !digits.isEmpty && digits.all isAsciiDigit && decide (value ≤ 255) then some value else none

/-- `str::split_once`. -/
def splitOnce (separator : Char) (text : List Char) : Option (List Char × List Char) :=
  match text.span (· ≠ separator) with
  | (before, _ :: after) => some (before, after)
  | (_, []) => none

/-- `BASE64.decode` of the standard alphabet. -/
def decodeStandard (context : String) (text : List Char) : Except String (List UInt8) :=
  orFail context (Base64.decodePadded Base64.standard text)

/-- `BASE64.encode` of the standard alphabet. -/
def encodeStandard (data : List UInt8) : List Char :=
  let body := Base64.encode Base64.standard data
  body ++ List.replicate (Base64.padLength body.length) '='

namespace CryptoKeys

variable (C : Cryptography) (allowInsecureMac : Bool) (keys : CryptoKeys)

/-- The vector and the ciphertext, once the tag is found right, or is missing and may be.
SRCLINE: crypto_keys.rs:221-245 -/
def checkMac (iv ciphertext : List UInt8) : Option (List Char) → Except String Unit
  | some text => do
    let mac ← decodeStandard "Failed to decode MAC" text
    ensureThat (C.hmac keys.macKey (iv ++ ciphertext) = mac) "MAC verification failed"
  | none => ensureThat allowInsecureMac "Encrypted string is missing MAC (integrity tag)."

/-- SRCLINE: crypto_keys.rs:211-262 -/
def openParts (iv ciphertext : List Char) (mac : Option (List Char)) :
    Except String (List UInt8) := do
  let iv ← decodeStandard "Failed to decode IV" iv
  let ciphertext ← decodeStandard "Failed to decode ciphertext" ciphertext
  keys.checkMac C allowInsecureMac iv ciphertext mac
  orFail "AES decrypt failed" (C.aesDecrypt keys.encKey iv ciphertext)

/-- SRCLINE: crypto_keys.rs:189-262 -/
def decrypt (encrypted : String) : Except String (List UInt8) := do
  let (kind, data) ← orFail "Invalid encrypted string format" (splitOnce '.' encrypted.toList)
  let kind ← orFail "Invalid encryption type" (parseU8 kind)
  ensureThat (kind = 2) ("Unsupported encryption type: " ++ toString kind)
  match split '|' data with
  | [iv, ciphertext] => keys.openParts C allowInsecureMac iv ciphertext none
  | [iv, ciphertext, mac] => keys.openParts C allowInsecureMac iv ciphertext (some mac)
  | _ => .error "Invalid encrypted data format"

/-- SRCLINE: crypto_keys.rs:176-179 -/
def decryptToString (encrypted : String) : Except String String := do
  let decrypted ← keys.decrypt C allowInsecureMac encrypted
  orFail "Decrypted data is not valid UTF-8" (fromUtf8 decrypted)

/-- SRCLINE: crypto_keys.rs:168-171 -/
def decryptAuthenticatedToString (encrypted : String) : Except String String := do
  requireAuthenticated encrypted
  keys.decryptToString C allowInsecureMac encrypted

/-- SRCLINE: crypto_keys.rs:117-126 -/
def itemKeys : Option String → Except String CryptoKeys
  | none => .ok keys
  | some value => do
    requireAuthenticated value
    let data ← keys.decrypt C allowInsecureMac value
    fromSymmetricKey data

end CryptoKeys

/-! ## Encryption -/

/-- What encrypts draws from `getrandom`, whose answers are given. -/
abbrev Sealing := StateT (List (List UInt8)) (Except String)

/-- `getrandom::fill`. -/
def getrandom (n : ℕ) : Sealing (List UInt8)
  | draw :: draws => if draw.length = n then .ok (draw, draws) else .error "randomness unavailable"
  | [] => .error "randomness unavailable"

namespace CryptoKeys

variable (C : Cryptography) (keys : CryptoKeys)

/-- SRCLINE: crypto_keys.rs:80-100 -/
def encrypt (plaintext : List UInt8) : Sealing String := do
  let iv ← getrandom 16
  let ciphertext := C.aesEncrypt keys.encKey iv plaintext
  let mac := C.hmac keys.macKey (iv ++ ciphertext)
  pure (String.ofList (['2', '.'] ++ encodeStandard iv ++ '|' :: (encodeStandard ciphertext ++
    '|' :: encodeStandard mac)))

/-- SRCLINE: crypto_keys.rs:104-112 -/
def newWrappedItemKey : Sealing (CryptoKeys × String) := do
  let data ← getrandom 64
  let itemKeys ← StateT.lift (fromSymmetricKey data)
  let wrapped ← keys.encrypt C data
  pure (itemKeys, wrapped)

end CryptoKeys

/-! ## Items -/

/-- SRCLINE: models.rs:170-175 -/
inductive FieldType where
  | text
  | hidden
  | boolean
  | linked
  deriving DecidableEq, Repr

/-- SRCLINE: models.rs:800-807 -/
structure FieldData where
  name : Option String
  value : Option String
  type : FieldType
  deriving DecidableEq, Repr

/-- SRCLINE: models.rs:727-736 -/
structure LoginData where
  username : Option String
  password : Option String
  deriving DecidableEq, Repr

/-- SRCLINE: models.rs:444-450 -/
inductive CipherData where
  | login (data : LoginData)
  | secureNote
  | card
  | identity
  | sshKey
  deriving DecidableEq, Repr

/-- SRCLINE: models.rs:624-641 -/
structure NestedCipherData where
  name : Option String
  notes : Option String
  username : Option String
  password : Option String
  fields : Option (List FieldData)
  deriving DecidableEq, Repr

/-- SRCLINE: models.rs:509-523 -/
structure Cipher where
  itemKey : Option String
  id : String
  organizationId : Option String
  deletedDate : Option String
  name : Option String
  notes : Option String
  folderId : Option String
  fields : Option (List FieldData)
  data : Option NestedCipherData
  cipherData : Option CipherData
  deriving DecidableEq, Repr

namespace Cipher

variable (c : Cipher)

def isLogin : Bool :=
  match c.cipherData with
  | some (.login _) => true
  | _ => false

/-- SRCLINE: models.rs:644-650 -/
def resolveField (direct : Option String) (nested : NestedCipherData → Option String) :
    Option String := direct.or (c.data.bind nested)

/-- What the item's login holds. -/
def fromLogin (field : LoginData → Option String) : Option String :=
  match c.cipherData with
  | some (.login data) => field data
  | _ => none

/-- SRCLINE: models.rs:654-656 -/
def getName : Option String := c.resolveField c.name NestedCipherData.name

/-- SRCLINE: models.rs:660-669 -/
def getUsername : Option String :=
  c.resolveField (c.fromLogin LoginData.username) NestedCipherData.username

/-- SRCLINE: models.rs:673-682 -/
def getPassword : Option String :=
  c.resolveField (c.fromLogin LoginData.password) NestedCipherData.password

/-- SRCLINE: models.rs:711-713 -/
def getNotes : Option String := c.resolveField c.notes NestedCipherData.notes

/-- The fields, none if there is no list of them.
SRCLINE: models.rs:717-721 -/
def getFields : List FieldData := (c.fields.or (c.data.bind NestedCipherData.fields)).getD []

end Cipher

/-- SRCLINE: models.rs:354-359 -/
structure Folder where
  id : String
  name : String
  deriving DecidableEq, Repr

/-- What is read of a sync.
SRCLINE: models.rs:310-319 -/
structure SyncResponse where
  ciphers : List Cipher
  folders : List Folder
  profileId : String
  deriving DecidableEq, Repr

/-! ## Inputs -/

def MAX_IMPORT_BYTES : ℕ := 64 * 1024

/-- SRCLINE: secret_storage.rs:23-26 -/
structure NamedSecret where
  name : String
  value : String
  deriving DecidableEq, Repr

/-- SRCLINE: secret_storage.rs:15-20 -/
structure SecretImport where
  password : Option String
  notes : Option String
  fields : List NamedSecret
  deriving DecidableEq, Repr

namespace SecretImport

variable (input : SecretImport)

/-- The size of a text that may be missing. -/
def sizeOf (value : Option String) : ℕ := (value.map String.utf8ByteSize).getD 0

/-- SRCLINE: secret_storage.rs:42-67 -/
def validate : Except String Unit := do
  ensureThat (input.password.isSome || !input.fields.isEmpty) "secret input is empty"
  ensureThat (decide (input.fields.length ≤ 32) &&
      input.fields.all (fun f => validFieldName f.name && decide (f.name ≠ "vw-access")) &&
      !hasDuplicates (input.fields.map NamedSecret.name))
    "invalid or duplicate secret field"
  ensureThat (sizeOf input.password + sizeOf input.notes +
      (input.fields.map fun f => f.name.utf8ByteSize + f.value.utf8ByteSize).sum ≤ MAX_IMPORT_BYTES)
    "secret input exceeds limit"

/-- SRCLINE: secret_storage.rs:69-80 -/
def selectors : List String :=
  sortTexts ((if input.password.isSome then ["password"] else []) ++
    (if input.notes.isSome then ["notes"] else []) ++
    input.fields.map fun f => customMarker ++ f.name)

end SecretImport

/-! ## Destinations -/

section Storage

variable (C : Cryptography) (allowInsecureMac : Bool)

namespace Destination

variable (d : Destination)

/-- `item_name` with its refusals.
SRCLINE: secret_storage.rs:129-145 -/
def nameOrFail : Except String String :=
  if validId d.accountId && validId d.folderId && canonicalPath d.folder &&
      canonicalPath d.reference then
    orFail "reference is outside folder" d.itemName
  else .error "invalid storage destination"

/-- The decrypted names of the folders. -/
def folderLabels (keys : CryptoKeys) (folders : List Folder) :
    Except String (List (String × String)) :=
  folders.mapM fun folder => do
    let label ← keys.decryptAuthenticatedToString C allowInsecureMac folder.name
    pure (folder.id, label)

/-- No personal item of the folder has the name.
SRCLINE: secret_storage.rs:168-187 -/
def checkUnused (name : String) (keys : CryptoKeys) : List Cipher → Except String Unit
  | [] => .ok ()
  | cipher :: ciphers =>
    if cipher.organizationId.isNone && cipher.folderId = some d.folderId then do
      let itemKeys ← keys.itemKeys C allowInsecureMac cipher.itemKey
      let encrypted ← orFail "item name unavailable" cipher.getName
      let label ← itemKeys.decryptAuthenticatedToString C allowInsecureMac encrypted
      ensureThat (decide (label ≠ name)) "reference already exists; updates are unsupported"
      checkUnused name keys ciphers
    else checkUnused name keys ciphers

/-- SRCLINE: secret_storage.rs:146-190 -/
def checkSync (sync : SyncResponse) (keys : CryptoKeys) (creating : Bool) : Except String Unit := do
  let name ← d.nameOrFail
  ensureThat (sync.profileId = d.accountId) "account binding mismatch"
  let folders ← folderLabels C allowInsecureMac keys sync.folders
  ensureThat (((folders.filter fun folder => folder.2 = d.folder).map Prod.fst) = [d.folderId])
    "folder binding is ambiguous or changed"
  if creating then d.checkUnused C allowInsecureMac name keys sync.ciphers else .ok ()

/-- SRCLINE: secret_storage.rs:193-210 -/
def checkItem (cipher : Cipher) (id : String) (parent : CryptoKeys) : Except String CryptoKeys := do
  ensureThat (decide (cipher.id = id) && cipher.deletedDate.isNone && cipher.organizationId.isNone &&
    decide (cipher.folderId = some d.folderId)) "item binding mismatch"
  let keys ← parent.itemKeys C allowInsecureMac cipher.itemKey
  let encrypted ← orFail "item name unavailable" cipher.getName
  let label ← keys.decryptAuthenticatedToString C allowInsecureMac encrypted
  let name ← d.nameOrFail
  ensureThat (label = name) "reference binding changed"
  pure keys

end Destination

/-! ## Creation -/

/-- SRCLINE: secret_storage.rs:229-234 -/
structure EncryptedField where
  name : String
  value : String
  type : UInt8
  deriving DecidableEq, Repr

/-- SRCLINE: secret_storage.rs:212-228 -/
structure EncryptedCreate where
  type : UInt8
  organizationId : Option String
  folderId : String
  name : String
  key : String
  notes : Option String
  password : Option String
  fields : List EncryptedField
  favorite : Bool
  reprompt : UInt8
  deriving DecidableEq, Repr

/-- SRCLINE: secret_storage.rs:248 -/
def encryptText (keys : CryptoKeys) (value : String) : Sealing String := keys.encrypt C (bytes value)

/-- A field with its name and its value encrypted. -/
def encryptField (keys : CryptoKeys) (name value : String) (type : UInt8) :
    Sealing EncryptedField := do
  let name ← encryptText C keys name
  let value ← encryptText C keys value
  pure ⟨name, value, type⟩

/-- A text that may be missing. -/
def encryptOptional (keys : CryptoKeys) : Option String → Sealing (Option String)
  | none => pure none
  | some value => do
    let encrypted ← encryptText C keys value
    pure (some encrypted)

/-- The field of the marker, if there is one. -/
def encryptMarker (keys : CryptoKeys) : Option String → Sealing (List EncryptedField)
  | none => pure []
  | some marker => do
    let field ← encryptField C keys "vw-access" marker 0
    pure [field]

/-- SRCLINE: secret_storage.rs:240-281 -/
def encryptCreate (parent : CryptoKeys) (destination : Destination) (input : SecretImport)
    (marker : Option String) : Sealing EncryptedCreate := do
  StateT.lift input.validate
  let (keys, key) ← parent.newWrappedItemKey C
  let secrets ← input.fields.mapM fun f => encryptField C keys f.name f.value 1
  let marked ← encryptMarker C keys marker
  let itemName ← StateT.lift destination.nameOrFail
  let name ← encryptText C keys itemName
  let notes ← encryptOptional C keys input.notes
  let password ← encryptOptional C keys input.password
  pure { type := 1, organizationId := none, folderId := destination.folderId, name, key, notes,
         password, fields := secrets ++ marked, favorite := false, reprompt := 0 }

/-! ## Selection and verification -/

/-- The fields in order: their names are distinct, and the one whose name is looked for is kept. -/
def scanFields (keys : CryptoKeys) (wanted : Option String) :
    List FieldData → List String → Option String → Except String (Option String)
  | [], _, custom => .ok custom
  | field :: fields, names, custom => do
    let encrypted ← orFail "field name missing" field.name
    let name ← keys.decryptAuthenticatedToString C allowInsecureMac encrypted
    ensureThat (!names.contains name) "duplicate custom field"
    scanFields keys wanted fields (name :: names)
      (if wanted = some name then field.value else custom)

/-- `strip_prefix("custom:")`. -/
def customName (selector : String) : Option String :=
  (selector.toList.dropPrefix? customMarker.toList).map String.ofList

/-- What a selector selects, given the value of its custom field. -/
def pick (cipher : Cipher) (custom : Option String) (selector : String) :
    Except String (Option String) :=
  if selector = "password" then .ok cipher.getPassword
  else if selector = "notes" then .ok cipher.getNotes
  else if startsWith selector customMarker then .ok custom
  else .error "invalid field selector"

/-- SRCLINE: secret_storage.rs:285-316 -/
def selectedValue (cipher : Cipher) (keys : CryptoKeys) (selector : String) :
    Except String String := do
  ensureThat cipher.deletedDate.isNone "item is deleted"
  let custom ← scanFields C allowInsecureMac keys (customName selector) cipher.getFields [] none
  let picked ← pick cipher custom selector
  let encrypted ← orFail "selected field missing" picked
  requireAuthenticated encrypted
  keys.decryptAuthenticatedToString C allowInsecureMac encrypted

/-- The fields are hidden, all but the marker's. -/
def checkHidden (keys : CryptoKeys) (marked : Bool) : List FieldData → Except String Unit
  | [] => .ok ()
  | field :: fields => do
    let encrypted ← orFail "field name missing" field.name
    let name ← keys.decryptAuthenticatedToString C allowInsecureMac encrypted
    ensureThat ((name = "vw-access" && marked) || field.type = .hidden)
      "created secret field is not hidden"
    checkHidden keys marked fields

/-- A selected value is the one that was to be stored. -/
def checkValue (cipher : Cipher) (keys : CryptoKeys) (selector value : String) :
    Except String Unit := do
  let selected ← selectedValue C allowInsecureMac cipher keys selector
  ensureThat (selected = value) "verification mismatch"

/-- A value that may be missing. -/
def checkOptional (cipher : Cipher) (keys : CryptoKeys) (selector : String) :
    Option String → Except String Unit
  | none => .ok ()
  | some value => checkValue C allowInsecureMac cipher keys selector value

/-- The custom fields, one after the other. -/
def checkFields (cipher : Cipher) (keys : CryptoKeys) : List NamedSecret → Except String Unit
  | [] => .ok ()
  | field :: fields => do
    checkValue C allowInsecureMac cipher keys (customMarker ++ field.name) field.value
    checkFields cipher keys fields

/-- SRCLINE: secret_storage.rs:320-379 -/
def verifyCreated (parent : CryptoKeys) (destination : Destination) (id : String) (cipher : Cipher)
    (input : SecretImport) (marker : Option String) : Except String Unit := do
  ensureThat (cipher.isLogin && cipher.itemKey.isSome) "created item shape mismatch"
  let keys ← destination.checkItem C allowInsecureMac cipher id parent
  ensureThat (cipher.getPassword.isSome = input.password.isSome &&
      cipher.getNotes.isSome = input.notes.isSome &&
      decide (cipher.getFields.length = input.fields.length + if marker.isSome then 1 else 0))
    "created item schema mismatch"
  checkHidden C allowInsecureMac keys marker.isSome cipher.getFields
  checkOptional C allowInsecureMac cipher keys "password" input.password
  checkOptional C allowInsecureMac cipher keys "notes" input.notes
  checkFields C allowInsecureMac cipher keys input.fields
  checkOptional C allowInsecureMac cipher keys "custom:vw-access" marker

end Storage

end VaultAccess.Model
