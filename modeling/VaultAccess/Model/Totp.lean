import VaultAccess.Library.Checked
import VaultAccess.Library.Encoding
import VaultAccess.Model.Manager
import VaultAccess.Model.SecretStorage

/-!
# One-time codes

`src/totp.rs`: a seed is base32 text, an `otpauth` address or a `steam` address; a code is cut out
of an HMAC of the number of periods since the epoch. HMAC comes from a package and is a parameter.
A `Checked` computation faults where the code would panic or an integer would overflow.
-/

set_option autoImplicit false

namespace VaultAccess.Model.Totp

open VaultAccess.Library VaultAccess.Library.Text
open VaultAccess.Library.Checked (okOr refuseIf index window add sub mul div rem shl shr)
open VaultAccess.Model (splitOnce)
open VaultAccess.Model.MachO (fromUtf8)
open VaultAccess.Model.Manager (isWhitespace)

/-- SRCLINE: totp.rs:6 -/
def STEAM_ALPHABET : List Char := "23456789BCDFGHJKMNPQRTVWXY".toList

/-- SRCLINE: totp.rs:9-13 -/
inductive Algorithm where
  | sha1
  | sha256
  | sha512
  deriving DecidableEq, Repr

/-- How many bytes a digest has. -/
def Algorithm.size : Algorithm → ℕ
  | sha1 => 20
  | sha256 => 32
  | sha512 => 64

/-- SRCLINE: totp.rs:15-22 -/
structure TotpConfig where
  secret : List UInt8
  algorithm : Algorithm
  digits : ℕ
  period : ℕ
  steam : Bool
  deriving DecidableEq, Repr

/-- HMAC of the package: a key may be refused, and a digest has the size of its algorithm. -/
structure Hmac where
  compute : Algorithm → List UInt8 → List UInt8 → Except String (List UInt8)
  size_compute : ∀ algorithm key message digest,
    compute algorithm key message = .ok digest → digest.length = algorithm.size

/-- A value, a returned error with its text, or a panic. -/
abbrev Outcome (α : Type) := Checked String α

/-! ## Texts -/

/-- `str::trim`. -/
def trim (text : List Char) : List Char :=
  ((text.dropWhile isWhitespace).reverse.dropWhile isWhitespace).reverse

/-- A text before and from a byte, if a character begins there: `get(..n)` and `get(n..)`. -/
def splitAtByte : ℕ → List Char → Option (List Char × List Char)
  | 0, text => some ([], text)
  | _ + 1, [] => none
  | n + 1, c :: rest =>
    if c.utf8Size ≤ n + 1 then
      (splitAtByte (n + 1 - c.utf8Size) rest).map fun (before, behind) => (c :: before, behind)
    else none
termination_by _ text => text.length

/-- `to_ascii_uppercase` of a character. -/
def toAsciiUppercase (c : Char) : Char := if isAsciiLowercase c then Char.ofNat (c.toNat - 32) else c

/-- `eq_ignore_ascii_case`. -/
def eqIgnoreAsciiCase (a b : List Char) : Bool := a.map toAsciiLowercase = b.map toAsciiLowercase

/-- The text begins so, in any case of its letters. -/
def hasScheme (scheme : String) (text : List Char) : Bool :=
  (splitAtByte scheme.utf8ByteSize text).any fun (before, _) => eqIgnoreAsciiCase before scheme.toList

/-- `parse` of an unsigned integer of so many bits. -/
def parseUnsigned (bits : ℕ) (text : List Char) : Option ℕ :=
  let digits := match text with
    | '+' :: digits => digits
    | digits => digits
  let value : ℕ := digits.foldl (fun value c => 10 * value + (c.toNat - 48)) 0
  if !digits.isEmpty && digits.all isAsciiDigit && decide (value < 2 ^ bits) then some value else none

/-- `{:0width$}`. -/
def zeroPadded (width n : ℕ) : List Char :=
  List.replicate (width - (Nat.toDigits 10 n).length) '0' ++ Nat.toDigits 10 n

/-! ## Seeds -/

/-- SRCLINE: totp.rs:141-148 -/
def hexValue (byte : UInt8) : Option ℕ :=
  let n := byte.toNat
  if 48 ≤ n ∧ n ≤ 57 then some (n - 48)
  else if 97 ≤ n ∧ n ≤ 102 then some (n - 97 + 10)
  else if 65 ≤ n ∧ n ≤ 70 then some (n - 65 + 10)
  else none

/-- The loop of `percent_decode`, over what is left of the bytes.
SRCLINE: totp.rs:118-137 -/
def percentBytes : List UInt8 → Outcome (List UInt8)
  | [] => pure []
  | byte :: rest =>
    if byte = 37 then
      match rest with
      | high :: low :: rest => do
        let high ← okOr "Invalid percent encoding in otpauth URI" (hexValue high)
        let low ← okOr "Invalid percent encoding in otpauth URI" (hexValue low)
        return UInt8.ofNat (high <<< 4 ||| low) :: (← percentBytes rest)
      | _ => .refuse "Invalid percent encoding in otpauth URI"
    else do
      return byte :: (← percentBytes rest)

/-- SRCLINE: totp.rs:114-139 -/
def percentDecode (value : List Char) : Outcome String := do
  let decoded ← percentBytes (utf8 value)
  okOr "otpauth URI parameters are not valid UTF-8" (fromUtf8 decoded)

/-- `to_ascii_uppercase` of a byte. -/
def upperByte (byte : UInt8) : UInt8 := if 97 ≤ byte.toNat ∧ byte.toNat ≤ 122 then byte - 32 else byte

/-- SRCLINE: totp.rs:157-162 -/
def base32Digit (byte : UInt8) : Option ℕ :=
  let upper := (upperByte byte).toNat
  if 65 ≤ upper ∧ upper ≤ 90 then some (upper - 65)
  else if 50 ≤ upper ∧ upper ≤ 55 then some (upper - 50 + 26)
  else none

/-- The state of the loop of `decode_base32`. -/
structure Decoding where
  output : List UInt8
  accumulator : ℕ
  bits : ℕ
  deriving DecidableEq, Repr

/-- One byte of the loop.
SRCLINE: totp.rs:156-170 -/
def Decoding.feed (state : Decoding) (byte : UInt8) : Outcome Decoding :=
  match base32Digit byte with
  | none => pure state
  | some digit => do
    let shifted ← shl 32 state.accumulator 5
    let accumulator := shifted ||| digit
    let bits ← add 32 state.bits 5
    if 8 ≤ bits then
      let bits ← sub bits 8
      let whole ← shr 32 accumulator bits
      let one ← shl 32 1 bits
      return {
        output := state.output ++ [UInt8.ofNat whole]
        accumulator := accumulator &&& ((one + (2 ^ 32 - 1)) % 2 ^ 32)
        bits }
    else return { state with accumulator, bits }

/-- SRCLINE: totp.rs:151-176 -/
def decodeBase32 (value : List Char) : Outcome (List UInt8) := do
  -- the capacity of the output
  let _capacity ← add 64 ((← mul 64 (utf8 value).length 5) / 8) 1
  let state ← (utf8 value).foldlM Decoding.feed ⟨[], 0, 0⟩
  refuseIf "Invalid Base32 TOTP secret" state.output.isEmpty
  return state.output

/-- The variables of `parse_otpauth`. -/
structure Parameters where
  secret : Option (List UInt8)
  algorithm : Algorithm
  digits : ℕ
  period : ℕ
  deriving DecidableEq, Repr

/-- One parameter of an address.
SRCLINE: totp.rs:73-102 -/
def Parameters.read (read : Parameters) (parameter : List Char) : Outcome Parameters := do
  let (rawName, rawValue) := (splitOnce '=' parameter).getD (parameter, [])
  let name ← percentDecode rawName
  let value ← percentDecode rawValue
  let name := name.toList.map toAsciiLowercase
  if name = "secret".toList then
    return { read with secret := some (← decodeBase32 (trim value.toList)) }
  else if name = "algorithm".toList then
    let upper := value.toList.map toAsciiUppercase
    return { read with
      algorithm :=
        if upper = "SHA256".toList then .sha256 else if upper = "SHA512".toList then .sha512 else .sha1 }
  else if name = "digits".toList then
    return { read with
      digits := match parseUnsigned 32 (trim value.toList) with
        | some parsed => if 10 < parsed then 10 else if 0 < parsed then parsed else 6
        | none => 6 }
  else if name = "period".toList then
    return { read with
      period := ((parseUnsigned 64 (trim value.toList)).filter fun parsed => decide (0 < parsed)).getD 30 }
  else return read

/-- SRCLINE: totp.rs:59-112 -/
def parseOtpauth (uri : List Char) : Outcome TotpConfig := do
  let (_, rest) ← okOr "Invalid otpauth URI" (splitAtByte 10 uri)
  let (path, query) ← okOr "otpauth URI has no parameters" (splitOnce '?' rest)
  let kind := (split '/' path).headD []
  refuseIf "Only TOTP otpauth URIs are supported" (!eqIgnoreAsciiCase kind "totp".toList)
  let read ← (split '&' query).foldlM Parameters.read ⟨none, .sha1, 6, 30⟩
  let secret ← okOr "otpauth URI has no secret" read.secret
  return { secret, algorithm := read.algorithm, digits := read.digits, period := read.period, steam := false }

/-- SRCLINE: totp.rs:29-57 -/
def parse (seed : List Char) : Outcome TotpConfig := do
  let seed := trim seed
  if hasScheme "otpauth://" seed then parseOtpauth seed
  else if hasScheme "steam://" seed then
    let secret := ((splitAtByte 8 seed).map Prod.snd).getD []
    return { secret := ← decodeBase32 secret, algorithm := .sha1, digits := 5, period := 30, steam := true }
  else return { secret := ← decodeBase32 seed, algorithm := .sha1, digits := 6, period := 30, steam := false }

/-! ## Codes -/

/-- The five characters of a Steam code.
SRCLINE: totp.rs:196-206 -/
def steamCode : ℕ → ℕ → Outcome (List Char)
  | 0, _ => pure []
  | count + 1, value => do
    let c ← index STEAM_ALPHABET (← rem value STEAM_ALPHABET.length)
    return c :: (← steamCode count (← div value STEAM_ALPHABET.length))

/-- SRCLINE: totp.rs:218-226 -/
def Hmac.digest (hmac : Hmac) (config : TotpConfig) (counter : List UInt8) : Outcome (List UInt8) :=
  match hmac.compute config.algorithm config.secret counter with
  | .error e => .refuse ("Invalid TOTP secret: " ++ e)
  | .ok digest => .value digest

/-- SRCLINE: totp.rs:179-216 -/
def generateConfig (hmac : Hmac) (config : TotpConfig) (timestamp : UInt64) : Outcome (List Char) := do
  let periods ← okOr "TOTP period must be positive"
    (if config.period = 0 then none else some (timestamp.toNat / config.period))
  let counter := Frames.be 8 periods
  let digest ← hmac.digest config counter
  let last ← index digest (← sub digest.length 1)
  let offset := last.toNat &&& 0x0f
  let part ← window digest offset (← add 64 offset 4)
  let part ← okOr "Invalid TOTP digest" (if part.length = 4 then some part else none)
  let code := Frames.unle part.reverse &&& 0x7fff_ffff
  if config.steam then steamCode 5 code
  else
    let modulus ← okOr "TOTP digits are too large"
      (if 10 ^ config.digits < 2 ^ 64 then some (10 ^ config.digits) else none)
    return zeroPadded config.digits (← rem code modulus)

/-- SRCLINE: totp.rs:24-27 -/
def generate (hmac : Hmac) (seed : String) (timestamp : UInt64) : Outcome String := do
  let config ← parse seed.toList
  return String.ofList (← generateConfig hmac config timestamp)

end VaultAccess.Model.Totp
