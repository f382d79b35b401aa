import Mathlib.Algebra.Group.Int.Defs
import VaultAccess.Model.Protocol

/-!
# What a Touch ID key signs

`src/access/approval_v2.rs`: the canonical text and the digest of a review, and the
transcripts that a key of the companion signs, for an approval and for its enrolment. The hash
is a parameter; a number of a review is an integer, so that the branch for a float is left out.
-/

set_option autoImplicit false

namespace VaultAccess.Model.Approval

open VaultAccess.Library VaultAccess.Library.Text

def APPROVAL_DOMAIN : List UInt8 := bytes "dev.vaultwarden.provider.approval.v2"
def ENROLL_DOMAIN : List UInt8 := bytes "dev.vaultwarden.provider.approval-enroll.v2"
def APPROVE_ACTION : List UInt8 := bytes "approve"
def PUBLIC_KEY_LEN : ℕ := 65

/-- Values the provider owns for one ticket of the companion.
SRCLINE: approval_v2.rs:31-39 -/
structure ApprovalContext where
  providerIdentity : String
  approvalClient : String
  ticket : String
  ticketDeadlineUnixMs : UInt64
  review : DirectReview

/-- SRCLINE: approval_v2.rs:58-62 -/
def digit (b : UInt8) : Option UInt8 :=
  if 0x30 ≤ b && b ≤ 0x39 then some (b - 0x30)
  else if 0x61 ≤ b && b ≤ 0x66 then some (b - 0x61 + 10)
  else none

/-- The bytes of pairs of digits.
SRCLINE: approval_v2.rs:57-65 -/
def pairs : List UInt8 → Option (List UInt8)
  | high :: low :: rest => do
    let high ← digit high
    let low ← digit low
    let rest ← pairs rest
    pure ((high <<< 4 ||| low) :: rest)
  | _ => some []

/-- SRCLINE: approval_v2.rs:52-67 -/
def hex32 (value : String) : Option (List UInt8) :=
  if validSha256 value then pairs (bytes value) else none

/-- SRCLINE: approval_v2.rs:76-78 -/
def validPublicKey (publicKey : List UInt8) : Bool :=
  publicKey.length = PUBLIC_KEY_LEN && publicKey.head? = some 0x04

/-- SRCLINE: approval_v2.rs:83-86 -/
def frame (field : List UInt8) : List UInt8 := toBeBytes field.length ++ field

/-- `u64::to_be_bytes`. -/
def toBeBytes64 (n : ℕ) : List UInt8 := toBeBytes (n / 4294967296) ++ toBeBytes n

/-- The text of a number that is a `u64` or an `i64`.
SRCLINE: approval_v2.rs:110-116 -/
def canonicalNumber (n : Int) : Option (List Char) :=
  if 0 ≤ n ∧ n < 2 ^ 64 then some (Json.decimal n)
  else if -2 ^ 63 ≤ n ∧ n < 2 ^ 63 then some (Json.decimal n)
  else none

mutual

/-- SRCLINE: approval_v2.rs:105-144 -/
def canonical : Json → Option (List Char)
  | .null => some ['n', 'u', 'l', 'l']
  | .bool true => some ['t', 'r', 'u', 'e']
  | .bool false => some ['f', 'a', 'l', 's', 'e']
  | .int n => canonicalNumber n
  | .str s => some (Json.quote s)
  | .arr items => do
    let texts ← canonicalItems items
    pure ('[' :: [','].intercalate texts ++ [']'])
  | .obj members => do
    let texts ← canonicalMembers members
    pure ('\x7b' :: [','].intercalate ((sortByKey Prod.fst texts).map fun member =>
      Json.quote member.1 ++ ':' :: member.2) ++ ['\x7d'])

/-- The canonical texts of the items. -/
def canonicalItems : List Json → Option (List (List Char))
  | [] => some []
  | item :: rest => do
    let text ← canonical item
    let texts ← canonicalItems rest
    pure (text :: texts)

/-- The canonical texts of the values, each with its name. -/
def canonicalMembers : List (String × Json) → Option (List (String × List Char))
  | [] => some []
  | (name, value) :: rest => do
    let text ← canonical value
    let texts ← canonicalMembers rest
    pure ((name, text) :: texts)

end

/-- SRCLINE: approval_v2.rs:100-104 -/
def reviewDigestValue (E : Externals) (value : Json) : Option (List UInt8) :=
  (canonical value).map fun text => (E.sha256 (utf8 text)).toList

/-- SRCLINE: approval_v2.rs:96-99 -/
def reviewDigest (E : Externals) (review : DirectReview) : Option (List UInt8) :=
  reviewDigestValue E review.toJson

/-- The fourteen fields of the approval transcript.
SRCLINE: approval_v2.rs:147-189 -/
def approvalTranscript (E : Externals) (context : ApprovalContext) (binding : ApprovalBinding)
    (generation : UInt64) (keyId : String) : Option (List UInt8) := do
  let provider ← hex32 context.providerIdentity
  let client ← hex32 context.approvalClient
  let key ← hex32 keyId
  let record ← hex32 binding.recordDigest
  let policy ← hex32 binding.policyDigest
  let arguments ← hex32 binding.argumentsDigest
  let ticket ← hex32 context.ticket
  let review ← reviewDigest E context.review
  if !validRequestId binding.requestId || context.review.id ≠ binding.requestId then none
  else
    pure ([APPROVAL_DOMAIN, APPROVE_ACTION, provider, client, key, bytes binding.requestId, record,
      policy, arguments, toBeBytes64 binding.expiresAtUnixSeconds, toBeBytes64 generation.toNat,
      ticket, toBeBytes64 context.ticketDeadlineUnixMs.toNat, review].flatMap frame)

/-- The transcript that proves the possession of a key.
SRCLINE: approval_v2.rs:192-215 -/
def enrollTranscript (providerIdentity approvalClient : String) (publicKey : List UInt8)
    (ticket actionId : String) : Option (List UInt8) := do
  let provider ← hex32 providerIdentity
  let client ← hex32 approvalClient
  let ticket ← hex32 ticket
  if !validPublicKey publicKey || !validRequestId actionId then none
  else pure ([ENROLL_DOMAIN, provider, client, publicKey, ticket, bytes actionId].flatMap frame)

end VaultAccess.Model.Approval
