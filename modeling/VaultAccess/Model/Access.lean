import VaultAccess.Library.Base64
import VaultAccess.Library.Json
import VaultAccess.Library.Text

/-!
# Identifiers and digests of the access protocol

`src/access.rs`: the identifier checks, the random request id, the hexadecimal
SHA-256 and the decoding of an agent's public key. The primitives the crate takes
from other packages (the hash and the signature scheme) are the fields of
`Externals`; their result types carry the lengths the packages promise.
-/

set_option autoImplicit false

namespace VaultAccess.Model

open VaultAccess.Library VaultAccess.Library.Text

/-- The packages the provider calls: `sha2` and `ed25519_dalek`. `verifyingKey` tells
that 32 bytes are the canonical encoding of a point that is not weak. -/
structure Externals where
  sha256 : List UInt8 → Vector UInt8 32
  verifyingKey : Vector UInt8 32 → Bool
  verifyStrict : Vector UInt8 32 → List UInt8 → Vector UInt8 64 → Bool

def PROTOCOL_VERSION : ℕ := 1
def MAX_OPERATION_ID_LEN : ℕ := 64
def MAX_ARGS : ℕ := 64
def MAX_ARG_LEN : ℕ := 4096

/-- `u32::MAX`. -/
def u32Max : UInt32 := 4294967295

/-- The first number a `u64` does not hold. -/
def u64Size : ℕ := 2 ^ 64

/-- `checked_add` on `u64`. -/
def checkedAdd (a b : ℕ) : Option ℕ := if a + b < u64Size then some (a + b) else none

/-- The characters of an operation id after `previous`. -/
def operationIdTail : Char → List Char → Bool
  | _, [] => true
  | previous, c :: rest =>
    (isAsciiLowercase c || isAsciiDigit c || (c = '-' && previous ≠ '-')) && operationIdTail c rest

/-- Lowercase letters, digits and single hyphens, starting with a letter and not ending
with a hyphen.
SRCLINE: access.rs:293-304 -/
def validOperationId (value : String) : Bool :=
  !value.isEmpty && decide (value.utf8ByteSize ≤ MAX_OPERATION_ID_LEN) &&
    (match value.toList with
      | [] => true
      | c :: rest => isAsciiLowercase c && operationIdTail c rest) &&
    value.toList.getLast? ≠ some '-'

/-- SRCLINE: access.rs:306-311 -/
def validSha256 (value : String) : Bool :=
  value.utf8ByteSize = 64 && value.toList.all isLowerHex

/-- Two lowercase hexadecimal digits a byte. -/
def hex (data : List UInt8) : List Char :=
  data.flatMap fun byte => [Json.hexDigit (byte.toNat / 16), Json.hexDigit (byte.toNat % 16)]

/-- SRCLINE: access.rs:313-316 -/
def hexSha256 (E : Externals) (data : List UInt8) : String :=
  String.ofList (hex (E.sha256 data).toList)

/-- `URL_SAFE_NO_PAD.encode`. -/
def encodeUrlSafe (data : List UInt8) : String :=
  String.ofList (Base64.encode Base64.urlSafe data)

/-- `URL_SAFE_NO_PAD.decode`. -/
def decodeUrlSafe (text : String) : Option (List UInt8) :=
  Base64.decode Base64.urlSafe text.toList

/-- The identifier made of 32 random bytes.
SRCLINE: access.rs:51-57 -/
def newRandom (random : Vector UInt8 32) : String := encodeUrlSafe random.toList

/-- SRCLINE: direct_request.rs:490-497 -/
def validRequestId (id : String) : Bool :=
  match decodeUrlSafe id with
  | some v => v.length = 32 && encodeUrlSafe v = id
  | none => false

/-- The 32 bytes of an agent's public key.
SRCLINE: access.rs:254-270 -/
def decodePublicKey (E : Externals) (encoded : String) : Option (Vector UInt8 32) := do
  let bytes ← decodeUrlSafe encoded
  if h : bytes.toArray.size = 32 then
    let key : Vector UInt8 32 := ⟨bytes.toArray, h⟩
    if E.verifyingKey key && encodeUrlSafe bytes = encoded then some key else none
  else none

/-! ## What the identifiers satisfy -/

theorem isLowerHex_hexDigit (n : ℕ) (h : n < 16) : isLowerHex (Json.hexDigit n) = true := by
  have : ∀ k < 16, isLowerHex (Json.hexDigit k) = true := by decide
  exact this n h

/-- INTERNAL: a hexadecimal text has only lowercase hexadecimal digits. -/
theorem isLowerHex_of_mem_hex (data : List UInt8) (c : Char) (hc : c ∈ hex data) :
    isLowerHex c = true := by
  unfold hex at hc
  obtain ⟨byte, -, hmem⟩ := List.mem_flatMap.mp hc
  have hbyte := byte.toNat_lt
  simp only [List.mem_cons, List.not_mem_nil, or_false] at hmem
  rcases hmem with rfl | rfl
  · exact isLowerHex_hexDigit _ (by omega)
  · exact isLowerHex_hexDigit _ (by omega)

/-- INTERNAL: a hexadecimal text has two characters a byte. -/
theorem length_hex (data : List UInt8) : (hex data).length = 2 * data.length := by
  unfold hex
  induction data with
  | nil => rfl
  | cons byte data ih =>
    simp only [List.flatMap_cons, List.length_append, ih, List.length_cons, List.length_nil]
    omega

/-- INTERNAL: lowercase hexadecimal digits are ASCII. -/
theorem ascii_of_isLowerHex (c : Char) (h : isLowerHex c = true) : c.toNat < 128 := by
  simp only [isLowerHex, isAsciiDigit, Bool.or_eq_true, Bool.and_eq_true, decide_eq_true_eq] at h
  rcases h with h | h
  · have : c.toNat ≤ 57 := h.2
    omega
  · have : c.toNat ≤ 102 := h.2
    omega

/-- INTERNAL: every digest the provider computes passes its own digest check. -/
theorem validSha256_hexSha256 (E : Externals) (data : List UInt8) :
    validSha256 (hexSha256 E data) = true := by
  have hhex : ∀ c ∈ hex (E.sha256 data).toList, isLowerHex c = true :=
    isLowerHex_of_mem_hex _
  have hlen : (hex (E.sha256 data).toList).length = 64 := by
    rw [length_hex, Vector.length_toList]
  unfold validSha256 hexSha256
  rw [utf8ByteSize_of_ascii _ (fun c hc => ascii_of_isLowerHex c (hhex c hc)), hlen,
    String.toList_ofList, List.all_eq_true.mpr hhex]
  rfl

theorem decodeUrlSafe_encodeUrlSafe (data : List UInt8) :
    decodeUrlSafe (encodeUrlSafe data) = some data := by
  unfold decodeUrlSafe encodeUrlSafe
  rw [String.toList_ofList]
  exact Base64.decode_encode Base64.urlSafe data

theorem validRequestId_newRandom (random : Vector UInt8 32) :
    validRequestId (newRandom random) = true := by
  unfold validRequestId newRandom
  rw [decodeUrlSafe_encodeUrlSafe]
  simp

end VaultAccess.Model
