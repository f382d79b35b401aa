import Mathlib.Data.List.TakeDrop
import VaultAccess.Library.Base32
import VaultAccess.Model.Totp
import VaultAccess.Analysis.Slices

/-!
# One-time codes from any seed

No step of a generation faults: the accumulator never holds more than twelve bits, a digest has
at least twenty bytes and at most ten digits fit a word. `decode_base32` reads the bit string of
the alphabet's characters, and `percent_decode` is the inverse of percent-encoding.
-/

set_option autoImplicit false

namespace VaultAccess.Analysis.Totps

open VaultAccess.Library VaultAccess.Library.Text VaultAccess.Model.Totp
open VaultAccess.Library.Checked (okOr refuseIf Safe safe_okOr safe_refuseIf safe_index safe_window safe_add
  safe_sub safe_mul safe_div safe_rem safe_shl safe_shr)
open VaultAccess.Model.MachO (fromUtf8)
open VaultAccess.Analysis.Slices (bytes_of_fromUtf8)

/-! ## Percent-encoding -/

/-- A byte stands for itself unless it is `%`; `%` and two hexadecimal digits stand for a byte. -/
inductive Escaped : List UInt8 → List UInt8 → Prop where
  | nil : Escaped [] []
  | literal {byte : UInt8} {encoded decoded : List UInt8} (hbyte : byte ≠ 37) (h : Escaped encoded decoded) :
      Escaped (byte :: encoded) (byte :: decoded)
  | escape {high low : UInt8} {x y : ℕ} {encoded decoded : List UInt8} (hhigh : hexValue high = some x)
      (hlow : hexValue low = some y) (h : Escaped encoded decoded) :
      Escaped (37 :: high :: low :: encoded) (UInt8.ofNat (16 * x + y) :: decoded)

/-- A hexadecimal digit in either case. -/
def hexDigit (upper : Bool) (n : ℕ) : UInt8 :=
  if n < 10 then UInt8.ofNat (48 + n) else if upper then UInt8.ofNat (55 + n) else UInt8.ofNat (87 + n)

/-- Percent-encoding by the bytes that are kept, with digits of either case. -/
def percentEncode (keeps : UInt8 → Bool) (upper : Bool) : List UInt8 → List UInt8
  | [] => []
  | byte :: rest =>
    if keeps byte && byte ≠ 37 then byte :: percentEncode keeps upper rest
    else 37 :: hexDigit upper (byte.toNat / 16) :: hexDigit upper (byte.toNat % 16) ::
      percentEncode keeps upper rest

/-- INTERNAL: a hexadecimal digit has four bits. -/
theorem hexValue_lt {byte : UInt8} {n : ℕ} (h : hexValue byte = some n) : n < 16 := by
  unfold hexValue at h
  dsimp only at h
  split_ifs at h
  all_goals
    simp only [Option.some.injEq] at h
    omega

theorem hexValue_hexDigit (upper : Bool) : ∀ n < 16, hexValue (hexDigit upper n) = some n := by
  cases upper <;> decide

/-- INTERNAL: every encoding is one. -/
theorem escaped_percentEncode (keeps : UInt8 → Bool) (upper : Bool) (bytes : List UInt8) :
    Escaped (percentEncode keeps upper bytes) bytes := by
  induction bytes with
  | nil => exact .nil
  | cons byte rest ih =>
    unfold percentEncode
    split_ifs with hkept
    · simp only [ne_eq, decide_not, Bool.and_eq_true, Bool.not_eq_true', decide_eq_false_iff_not] at hkept
      exact .literal hkept.2 ih
    · have hbyte := byte.toNat_lt
      have h := Escaped.escape (hexValue_hexDigit upper (byte.toNat / 16) (by omega))
        (hexValue_hexDigit upper (byte.toNat % 16) (by omega)) ih
      rw [show 16 * (byte.toNat / 16) + byte.toNat % 16 = byte.toNat by omega, UInt8.ofNat_toNat] at h
      exact h

/-- INTERNAL: what is decoded is no longer. -/
theorem Escaped.length_le {encoded decoded : List UInt8} (h : Escaped encoded decoded) :
    decoded.length ≤ encoded.length := by
  induction h with
  | nil => exact Nat.le_refl 0
  | literal _ _ ih =>
    simp only [List.length_cons]
    omega
  | escape _ _ _ ih =>
    simp only [List.length_cons]
    omega

theorem nibbles {x y : ℕ} (hy : y < 16) : x <<< 4 ||| y = 16 * x + y := by
  rw [← Nat.shiftLeft_add_eq_or_of_lt (show y < 2 ^ 4 from hy), Nat.shiftLeft_eq]
  omega

/-- **The loop decodes exactly the well-formed escapes.** -/
theorem percentBytes_cases (encoded : List UInt8) :
    (∃ decoded, percentBytes encoded = .value decoded ∧
      ∀ decoded', Escaped encoded decoded' ↔ decoded' = decoded) ∨
    (percentBytes encoded = .refuse "Invalid percent encoding in otpauth URI" ∧
      ∀ decoded', ¬ Escaped encoded decoded') := by
  induction encoded using percentBytes.induct with
  | case1 =>
    refine .inl ⟨[], rfl, fun decoded' => ⟨?_, ?_⟩⟩
    · intro h
      cases h
      rfl
    · rintro rfl
      exact .nil
  | case2 high low rest ih =>
    have hinvalid : hexValue high = none ∨ hexValue low = none →
        percentBytes (37 :: high :: low :: rest) = .refuse "Invalid percent encoding in otpauth URI" ∧
          ∀ decoded', ¬ Escaped (37 :: high :: low :: rest) decoded' := by
      intro hnone
      constructor
      · rw [percentBytes, if_pos rfl]
        rcases hnone with hnone | hnone
        · simp only [hnone]
          rfl
        · cases hhigh : hexValue high with
          | none => rfl
          | some x =>
            simp only [hnone]
            rfl
      · intro decoded' h
        cases h with
        | literal hbyte _ => exact hbyte rfl
        | escape hhigh hlow _ => simp [hhigh, hlow] at hnone
    cases hhigh : hexValue high with
    | none => exact .inr (hinvalid (.inl hhigh))
    | some x =>
      cases hlow : hexValue low with
      | none => exact .inr (hinvalid (.inr hlow))
      | some y =>
        have hstep : percentBytes (37 :: high :: low :: rest) =
            (percentBytes rest >>= fun rest => pure (UInt8.ofNat (x <<< 4 ||| y) :: rest)) := by
          rw [percentBytes, if_pos rfl, hhigh, hlow]
          rfl
        rw [nibbles (hexValue_lt hlow)] at hstep
        have hshape : ∀ decoded', Escaped (37 :: high :: low :: rest) decoded' ↔
            ∃ decoded, Escaped rest decoded ∧ decoded' = UInt8.ofNat (16 * x + y) :: decoded := by
          intro decoded'
          constructor
          · intro h
            cases h with
            | literal hbyte _ => exact absurd rfl hbyte
            | escape hhigh' hlow' h =>
              rw [hhigh] at hhigh'
              rw [hlow] at hlow'
              cases hhigh'
              cases hlow'
              exact ⟨_, h, rfl⟩
          · rintro ⟨decoded, h, rfl⟩
            exact .escape hhigh hlow h
        rcases ih with ⟨decoded, hvalue, hiff⟩ | ⟨hrefuse, hnone⟩
        · refine .inl ⟨_, by rw [hstep, hvalue]; rfl, fun decoded' => ?_⟩
          rw [hshape]
          simp only [hiff, exists_eq_left]
        · refine .inr ⟨by rw [hstep, hrefuse]; rfl, fun decoded' h => ?_⟩
          obtain ⟨decoded, hdecoded, -⟩ := (hshape decoded').mp h
          exact hnone decoded hdecoded
  | case3 rest hshort =>
    refine .inr ⟨?_, ?_⟩
    · unfold percentBytes
      rw [if_pos rfl]
      split
      · next high low rest' => exact absurd rfl (hshort high low rest')
      · rfl
    · intro decoded' h
      cases h with
      | literal hbyte _ => exact hbyte rfl
      | escape => exact hshort _ _ _ rfl
  | case4 byte rest hbyte ih =>
    have hstep : percentBytes (byte :: rest) = (percentBytes rest >>= fun rest => pure (byte :: rest)) := by
      conv_lhs => unfold percentBytes
      rw [if_neg hbyte]
    have hshape : ∀ decoded', Escaped (byte :: rest) decoded' ↔
        ∃ decoded, Escaped rest decoded ∧ decoded' = byte :: decoded := by
      intro decoded'
      constructor
      · intro h
        cases h with
        | literal _ h => exact ⟨_, h, rfl⟩
        | escape => exact absurd rfl hbyte
      · rintro ⟨decoded, h, rfl⟩
        exact .literal hbyte h
    rcases ih with ⟨decoded, hvalue, hiff⟩ | ⟨hrefuse, hnone⟩
    · refine .inl ⟨_, by rw [hstep, hvalue]; rfl, fun decoded' => ?_⟩
      rw [hshape]
      simp only [hiff, exists_eq_left]
    · refine .inr ⟨by rw [hstep, hrefuse]; rfl, fun decoded' h => ?_⟩
      obtain ⟨decoded, hdecoded, -⟩ := (hshape decoded').mp h
      exact hnone decoded hdecoded

/-- INTERNAL: the text of its own bytes. -/
theorem fromUtf8_bytes (text : String) : fromUtf8 (bytes text) = some text := by
  cases h : fromUtf8 (bytes text) with
  | some text' => rw [bytes_injective (bytes_of_fromUtf8 h)]
  | none =>
    have hvalid : (ByteArray.mk (bytes text).toArray).IsValidUTF8 := by
      have hsame : (ByteArray.mk (bytes text).toArray) = text.toByteArray := by
        rw [← String.ofList_toList (s := text), String.toByteArray_ofList, String.ofList_toList]
        apply ByteArray.ext
        rw [List.utf8Encode, List.data_toByteArray]
        rfl
      rw [hsame]
      exact text.isValidUTF8
    unfold fromUtf8 String.fromUTF8? at h
    rw [dif_pos hvalid] at h
    cases h

/-- What `percent_decode` answers. -/
structure PercentDecodes (value : List Char) : Prop where
  /-- The text that the escapes and the other bytes spell. -/
  decoded : ∀ text, percentDecode value = .value text ↔ Escaped (utf8 value) (bytes text)
  /-- A malformed escape. -/
  malformed : percentDecode value = .refuse "Invalid percent encoding in otpauth URI" ↔
    ∀ decoded, ¬ Escaped (utf8 value) decoded
  /-- Well-formed escapes of bytes that are no text. -/
  notUtf8 : percentDecode value = .refuse "otpauth URI parameters are not valid UTF-8" ↔
    ∃ decoded, Escaped (utf8 value) decoded ∧ ∀ text, bytes text ≠ decoded
  /-- There is no other answer. -/
  answers : (∃ text, percentDecode value = .value text) ∨
    percentDecode value = .refuse "Invalid percent encoding in otpauth URI" ∨
      percentDecode value = .refuse "otpauth URI parameters are not valid UTF-8"

/-- INTERNAL: **`percent_decode` is exact.** -/
theorem percentDecodes (value : List Char) : PercentDecodes value := by
  rcases percentBytes_cases (utf8 value) with ⟨decoded, hvalue, hiff⟩ | ⟨hrefuse, hnone⟩
  · have hdecode : percentDecode value =
        okOr "otpauth URI parameters are not valid UTF-8" (fromUtf8 decoded) := by
      unfold percentDecode
      rw [hvalue]
      rfl
    cases htext : fromUtf8 decoded with
    | some text =>
      have hbytes := bytes_of_fromUtf8 htext
      rw [htext] at hdecode
      exact {
        decoded := by
          intro text'
          rw [hdecode, hiff, ← hbytes]
          simp only [okOr, Checked.value.injEq]
          exact ⟨fun h => congrArg bytes h.symm, fun h => (bytes_injective h).symm⟩
        malformed := by
          rw [hdecode]
          simp only [okOr, reduceCtorEq, false_iff]
          exact fun h => h decoded ((hiff decoded).mpr rfl)
        notUtf8 := by
          rw [hdecode]
          simp only [okOr, reduceCtorEq, false_iff]
          rintro ⟨decoded', hescaped, hnot⟩
          rw [(hiff decoded').mp hescaped] at hnot
          exact hnot text hbytes
        answers := .inl ⟨text, hdecode⟩ }
    | none =>
      have hnot : ∀ text, bytes text ≠ decoded := by
        intro text hbytes
        rw [← hbytes, fromUtf8_bytes] at htext
        cases htext
      rw [htext] at hdecode
      exact {
        decoded := by
          intro text'
          rw [hdecode, hiff]
          simp only [okOr, reduceCtorEq, false_iff]
          exact hnot text'
        malformed := by
          rw [hdecode]
          simp only [okOr, Checked.refuse.injEq]
          constructor
          · intro h
            exact absurd h (by decide)
          · intro h
            exact absurd ((hiff decoded).mpr rfl) (h decoded)
        notUtf8 := by
          rw [hdecode]
          exact ⟨fun _ => ⟨decoded, (hiff decoded).mpr rfl, hnot⟩, fun _ => rfl⟩
        answers := .inr (.inr hdecode) }
  · have hdecode : percentDecode value = .refuse "Invalid percent encoding in otpauth URI" := by
      unfold percentDecode
      rw [hrefuse]
      rfl
    exact {
      decoded := by
        intro text
        rw [hdecode]
        simp only [reduceCtorEq, false_iff]
        exact hnone _
      malformed := ⟨fun _ => hnone, fun _ => hdecode⟩
      notUtf8 := by
        rw [hdecode]
        simp only [Checked.refuse.injEq]
        constructor
        · intro h
          exact absurd h (by decide)
        · rintro ⟨decoded, h, -⟩
          exact absurd h (hnone decoded)
      answers := .inr (.inl hdecode) }

/-! ## Base32 -/

/-- The digit of a character, in either case. -/
def charDigit (c : Char) : Option ℕ :=
  let n := c.toNat
  if 65 ≤ n ∧ n ≤ 90 then some (n - 65)
  else if 97 ≤ n ∧ n ≤ 122 then some (n - 97)
  else if 50 ≤ n ∧ n ≤ 55 then some (n - 50 + 26)
  else none

/-- The alphabet of RFC 4648, read in either case. -/
def base32 : Base32.Alphabet where
  char := fun n => if n < 26 then Char.ofNat (65 + n) else Char.ofNat (24 + n)
  value := charDigit
  value_char := by decide
  value_lt := by
    intro c n h
    unfold charDigit at h
    dsimp only at h
    split_ifs at h
    all_goals
      simp only [Option.some.injEq] at h
      omega

/-- INTERNAL: the bytes of a character outside ASCII. -/
theorem high_utf8EncodeChar {c : Char} (h : c.utf8Size ≠ 1) : ∀ b ∈ String.utf8EncodeChar c, 128 ≤ b.toNat := by
  have hval : 128 ≤ c.val.toNat := by
    have hascii : ¬ c.toNat < 128 := fun hlt => h (utf8Size_eq_one_iff.mpr hlt)
    exact Nat.le_of_not_lt hascii
  intro b hb
  unfold String.utf8EncodeChar at hb
  simp only [] at hb
  split_ifs at hb
  all_goals
    simp only [List.mem_cons, List.not_mem_nil, or_false] at hb
    rcases hb with rfl | rfl | rfl | rfl
  all_goals
    rw [UInt8.toNat_ofNat']
    omega

/-- INTERNAL: the digit of a byte. -/
theorem base32Digit_eq (byte : UInt8) : base32Digit byte =
    if 65 ≤ byte.toNat ∧ byte.toNat ≤ 90 then some (byte.toNat - 65)
    else if 97 ≤ byte.toNat ∧ byte.toNat ≤ 122 then some (byte.toNat - 97)
    else if 50 ≤ byte.toNat ∧ byte.toNat ≤ 55 then some (byte.toNat - 50 + 26)
    else none := by
  have hbyte := byte.toNat_lt
  unfold base32Digit upperByte
  by_cases hlower : 97 ≤ byte.toNat ∧ byte.toNat ≤ 122
  · have hsub : (byte - 32).toNat = byte.toNat - 32 := by
      rw [UInt8.toNat_sub_of_le]
      · rfl
      · exact UInt8.le_iff_toNat_le.mpr (by show 32 ≤ byte.toNat; omega)
    simp only [if_pos hlower, hsub]
    rw [if_pos (by omega), if_neg (by omega)]
    congr 1
  · simp only [if_neg hlower]

/-- INTERNAL: the bytes of one character. -/
theorem filterMap_utf8EncodeChar (c : Char) :
    (String.utf8EncodeChar c).filterMap base32Digit = (charDigit c).toList := by
  by_cases hsize : c.utf8Size = 1
  · have hascii := utf8Size_eq_one_iff.mp hsize
    rw [utf8EncodeChar_of_utf8Size hsize, List.filterMap_cons, List.filterMap_nil, base32Digit_eq]
    have hbyte : (UInt8.ofNat c.toNat).toNat = c.toNat := by
      rw [UInt8.toNat_ofNat']
      omega
    rw [hbyte]
    unfold charDigit
    dsimp only
    split_ifs <;> rfl
  · have hbig : ∀ b ∈ String.utf8EncodeChar c, 128 ≤ b.toNat := high_utf8EncodeChar hsize
    have hnone : charDigit c = none := by
      have hascii : ¬ c.toNat < 128 := fun h => hsize (utf8Size_eq_one_iff.mpr h)
      unfold charDigit
      dsimp only
      rw [if_neg (by omega), if_neg (by omega), if_neg (by omega)]
    rw [hnone, Option.toList_none, List.filterMap_eq_nil_iff]
    intro b hb
    have hb := hbig b hb
    rw [base32Digit_eq, if_neg (by omega), if_neg (by omega), if_neg (by omega)]

/-- INTERNAL: the digits of the bytes are those of the characters. -/
theorem filterMap_utf8 (text : List Char) :
    (utf8 text).filterMap base32Digit = Base32.digits base32 text := by
  unfold utf8 Base32.digits
  induction text with
  | nil => rfl
  | cons c text ih =>
    rw [List.flatMap_cons, List.filterMap_append, ih, filterMap_utf8EncodeChar, List.filterMap_cons,
      show base32.value c = charDigit c from rfl]
    cases charDigit c <;> rfl

/-- INTERNAL: the output and the accumulator hold the bits that were read. -/
structure Holds (state : Decoding) (bits : List Bool) : Prop where
  short : state.bits < 8
  small : state.accumulator < 2 ^ state.bits
  held : Bits.ofBytes state.output ++ Bits.msb state.bits state.accumulator = bits

theorem shifted {accumulator bits digit : ℕ} (hshort : bits < 8) (hsmall : accumulator < 2 ^ bits)
    (hdigit : digit < 32) : accumulator <<< 5 % 2 ^ 32 ||| digit = accumulator * 2 ^ 5 + digit := by
  have hpow : 2 ^ bits ≤ 2 ^ 7 := Nat.pow_le_pow_right (by decide) (by omega)
  rw [Nat.mod_eq_of_lt (by rw [Nat.shiftLeft_eq]; omega),
    ← Nat.shiftLeft_add_eq_or_of_lt (show digit < 2 ^ 5 from hdigit), Nat.shiftLeft_eq]

/-- INTERNAL: the mask of the bits that stay. -/
theorem masked {bits : ℕ} (h : bits < 5) (n : ℕ) :
    n &&& ((1 <<< bits % 2 ^ 32 + (2 ^ 32 - 1)) % 2 ^ 32) = n % 2 ^ bits := by
  have hpow : 2 ^ bits ≤ 2 ^ 4 := Nat.pow_le_pow_right (by decide) (by omega)
  have hpos := Nat.two_pow_pos bits
  rw [Nat.shiftLeft_eq, Nat.one_mul, Nat.mod_eq_of_lt (show 2 ^ bits < 2 ^ 32 by omega),
    show (2 ^ bits + (2 ^ 32 - 1)) % 2 ^ 32 = 2 ^ bits - 1 by omega, Nat.and_two_pow_sub_one_eq_mod]

/-- INTERNAL: **one byte keeps the bits**: nothing overflows and none is lost. -/
theorem Holds.feed {state : Decoding} {bits : List Bool} (h : Holds state bits) (byte : UInt8) :
    ∃ next, state.feed byte = .value next ∧
      Holds next (bits ++ Base32.bitsOf (base32Digit byte).toList) := by
  unfold Decoding.feed
  cases hdigit : base32Digit byte with
  | none =>
    refine ⟨state, rfl, ?_⟩
    rw [Option.toList_none, Base32.bitsOf, List.flatMap_nil, List.append_nil]
    exact h
  | some digit =>
    have hlt : digit < 32 := by
      rw [base32Digit_eq] at hdigit
      split_ifs at hdigit
      all_goals
        simp only [Option.some.injEq] at hdigit
        omega
    obtain ⟨output, accumulator, count⟩ := state
    obtain ⟨hshort, hsmall, rfl⟩ := h
    dsimp only at hshort hsmall
    have hgrown : accumulator * 2 ^ 5 + digit < 2 ^ (count + 5) := by
      rw [Nat.pow_add]
      omega
    have hbits : Bits.msb count accumulator ++ Bits.msb 5 digit =
        Bits.msb (count + 5) (accumulator * 2 ^ 5 + digit) := (Bits.msb_append count hlt).symm
    have hadd : (Checked.add 32 count 5 : Outcome ℕ) = .value (count + 5) := if_pos (by omega)
    rw [Option.toList_some, Base32.bitsOf, List.flatMap_singleton]
    dsimp only
    rw [show (Checked.shl 32 accumulator 5 : Outcome ℕ) = .value (accumulator <<< 5 % 2 ^ 32) from rfl, hadd]
    simp only [Bind.bind, Checked.bind, shifted hshort hsmall hlt]
    by_cases hwhole : 8 ≤ count + 5
    · obtain ⟨left, rfl⟩ : ∃ left, count = left + 3 := ⟨count - 3, by omega⟩
      have hleft : left < 5 := by omega
      have hsplit : accumulator * 2 ^ 5 + digit =
          (accumulator * 2 ^ 5 + digit) / 2 ^ left * 2 ^ left + (accumulator * 2 ^ 5 + digit) % 2 ^ left :=
        (Nat.div_add_mod' _ _).symm
      have hrest := Nat.mod_lt (accumulator * 2 ^ 5 + digit) (Nat.two_pow_pos left)
      have hbyte : (accumulator * 2 ^ 5 + digit) / 2 ^ left < 256 := by
        rw [Nat.div_lt_iff_lt_mul (Nat.two_pow_pos left), show 256 = 2 ^ 8 from rfl, ← Nat.pow_add,
          Nat.add_comm 8 left]
        exact hgrown
      rw [if_pos hwhole, show (Checked.sub (left + 3 + 5) 8 : Outcome ℕ) = .value left from if_pos (by omega)]
      dsimp only
      rw [show (Checked.shr 32 (accumulator * 2 ^ 5 + digit) left : Outcome ℕ) =
          .value ((accumulator * 2 ^ 5 + digit) >>> left) from if_pos (by omega),
        show (Checked.shl 32 1 left : Outcome ℕ) = .value (1 <<< left % 2 ^ 32) from if_pos (by omega)]
      dsimp only
      rw [masked hleft, Nat.shiftRight_eq_div_pow]
      refine ⟨_, rfl, by dsimp only; omega, hrest, ?_⟩
      dsimp only
      rw [List.append_assoc, hbits, hsplit, show left + 3 + 5 = 8 + left by omega, Bits.msb_append 8 hrest,
        ← hsplit]
      simp only [Bits.ofBytes, List.flatMap_append, List.flatMap_singleton, UInt8.toNat_ofNat',
        Nat.mod_eq_of_lt (show (accumulator * 2 ^ 5 + digit) / 2 ^ left < 2 ^ 8 from hbyte), List.append_assoc]
    · rw [if_neg hwhole]
      refine ⟨_, rfl, by dsimp only; omega, hgrown, ?_⟩
      dsimp only
      rw [List.append_assoc, hbits]

/-- INTERNAL: the whole loop. -/
theorem Holds.loop {state : Decoding} {bits : List Bool} (h : Holds state bits) (bytes : List UInt8) :
    ∃ last, bytes.foldlM Decoding.feed state = .value last ∧
      Holds last (bits ++ Base32.bitsOf (bytes.filterMap base32Digit)) := by
  induction bytes generalizing state bits with
  | nil =>
    refine ⟨state, rfl, ?_⟩
    rw [List.filterMap_nil, Base32.bitsOf, List.flatMap_nil, List.append_nil]
    exact h
  | cons byte bytes ih =>
    obtain ⟨next, hnext, hholds⟩ := h.feed byte
    obtain ⟨last, hlast, hall⟩ := ih hholds
    refine ⟨last, ?_, ?_⟩
    · rw [List.foldlM_cons, hnext]
      exact hlast
    · rw [List.append_assoc] at hall
      have hdigits : (byte :: bytes).filterMap base32Digit =
          (base32Digit byte).toList ++ bytes.filterMap base32Digit := by
        rw [List.filterMap_cons]
        cases base32Digit byte <;> rfl
      rw [hdigits, Base32.bitsOf, List.flatMap_append]
      exact hall

/-- INTERNAL: **`decode_base32` is the whole bytes of the bit string**, for a text whose capacity
can be computed. -/
theorem decodeBase32_eq {text : List Char} (h : (utf8 text).length < 2 ^ 61) : decodeBase32 text =
    if (Base32.decoded base32 text).isEmpty then .refuse "Invalid Base32 TOTP secret"
    else .value (Base32.decoded base32 text) := by
  have hstart : Holds ⟨[], 0, 0⟩ [] := ⟨by decide, by decide, rfl⟩
  obtain ⟨last, hlast, hshort, hsmall, hheld⟩ := hstart.loop (utf8 text)
  have houtput : last.output = Base32.decoded base32 text := by
    rw [filterMap_utf8, List.nil_append] at hheld
    rw [Base32.decoded, ← hheld, Bits.wholeBytes_append,
      Bits.wholeBytes_short (by rw [Bits.length_msb]; exact hshort), List.append_nil]
  unfold decodeBase32
  rw [show (Checked.mul 64 (utf8 text).length 5 : Outcome ℕ) = .value ((utf8 text).length * 5) from
    if_pos (by omega)]
  simp only [Bind.bind, Checked.bind]
  rw [show (Checked.add 64 ((utf8 text).length * 5 / 8) 1 : Outcome ℕ) = .value ((utf8 text).length * 5 / 8 + 1)
    from if_pos (by omega), hlast, ← houtput]
  dsimp only
  cases last.output <;> rfl

/-! ## Sizes of the parts of a seed -/

/-- INTERNAL: a part is no longer. -/
theorem length_utf8_le {part text : List Char} (h : part.Sublist text) :
    (utf8 part).length ≤ (utf8 text).length := by
  induction h with
  | slnil => exact Nat.le_refl 0
  | cons c _ ih =>
    rw [utf8, utf8] at *
    rw [List.flatMap_cons, List.length_append]
    omega
  | cons_cons c _ ih =>
    rw [utf8, utf8] at *
    rw [List.flatMap_cons, List.flatMap_cons, List.length_append, List.length_append]
    omega

theorem trim_sublist (text : List Char) : (trim text).Sublist text := by
  unfold trim
  apply List.reverse_sublist.mp
  rw [List.reverse_reverse]
  exact (List.dropWhile_sublist _).trans (List.reverse_sublist.mpr (List.dropWhile_sublist _))

theorem splitOnce_sublist {separator : Char} {text before behind : List Char}
    (h : VaultAccess.Model.splitOnce separator text = some (before, behind)) :
    before.Sublist text ∧ behind.Sublist text := by
  unfold VaultAccess.Model.splitOnce at h
  rw [List.span_eq_takeWhile_dropWhile] at h
  cases hdrop : text.dropWhile (· ≠ separator) with
  | nil =>
    rw [hdrop] at h
    cases h
  | cons c rest =>
    rw [hdrop] at h
    cases h
    refine ⟨List.takeWhile_sublist _, ?_⟩
    have hsub : (c :: behind).Sublist text := hdrop ▸ List.dropWhile_sublist _
    exact (List.sublist_cons_self c behind).trans hsub

theorem splitAtByte_sublist {n : ℕ} {text before behind : List Char}
    (h : splitAtByte n text = some (before, behind)) : behind.Sublist text := by
  induction n, text using splitAtByte.induct generalizing before behind with
  | case1 text =>
    rw [splitAtByte] at h
    cases h
    exact List.Sublist.refl _
  | case2 n =>
    rw [splitAtByte] at h
    cases h
  | case3 n c rest hsize ih =>
    rw [splitAtByte, if_pos hsize] at h
    cases hrest : splitAtByte (n + 1 - c.utf8Size) rest with
    | none =>
      rw [hrest] at h
      cases h
    | some parts =>
      obtain ⟨front, back⟩ := parts
      rw [hrest] at h
      cases h
      exact (ih hrest).trans (List.sublist_cons_self c rest)
  | case4 n c rest hsize =>
    rw [splitAtByte, if_neg hsize] at h
    cases h

theorem split_sublist (separator : Char) (text : List Char) :
    ∀ part ∈ split separator text, part.Sublist text := by
  induction text with
  | nil => simp [split]
  | cons c text ih =>
    intro part hpart
    unfold split at hpart
    split_ifs at hpart
    · rcases List.mem_cons.mp hpart with rfl | hpart
      · exact List.nil_sublist _
      · exact (ih part hpart).trans (List.sublist_cons_self c text)
    · cases hsplit : split separator text with
      | nil => exact absurd hsplit (split_ne_nil separator text)
      | cons first others =>
        rw [hsplit] at hpart ih
        rcases List.mem_cons.mp hpart with rfl | hpart
        · exact (ih first List.mem_cons_self).cons_cons c
        · exact (ih part (List.mem_cons_of_mem first hpart)).trans (List.sublist_cons_self c text)

/-! ## Seeds -/

theorem safe_decodeBase32 {text : List Char} (h : (utf8 text).length < 2 ^ 61) :
    Safe (decodeBase32 text) fun _ => True := by
  rw [decodeBase32_eq h]
  split_ifs <;> trivial

/-- INTERNAL: a decoded text is no longer. -/
theorem safe_percentDecode (value : List Char) :
    Safe (percentDecode value) fun text => (utf8 text.toList).length ≤ (utf8 value).length := by
  have h := percentDecodes value
  rcases h.answers with ⟨text, htext⟩ | hrefuse | hrefuse
  · rw [htext]
    exact ((h.decoded text).mp htext).length_le
  · rw [hrefuse]
    trivial
  · rw [hrefuse]
    trivial

/-- INTERNAL: the digits and the period of an address are in range. -/
def Ranged (read : Parameters) : Prop := 1 ≤ read.digits ∧ read.digits ≤ 10 ∧ 0 < read.period

/-- INTERNAL: **one parameter.** -/
theorem safe_read {read : Parameters} (hranged : Ranged read) {parameter : List Char}
    (h : (utf8 parameter).length < 2 ^ 61) : Safe (read.read parameter) Ranged := by
  obtain ⟨hpositive, hten, hperiod⟩ := hranged
  obtain ⟨rawName, rawValue, hparts, hvalue⟩ : ∃ rawName rawValue,
      (VaultAccess.Model.splitOnce '=' parameter).getD (parameter, []) = (rawName, rawValue) ∧
        (utf8 rawValue).length < 2 ^ 61 := by
    cases hsplit : VaultAccess.Model.splitOnce '=' parameter with
    | none => exact ⟨parameter, [], rfl, by decide⟩
    | some parts =>
      obtain ⟨before, behind⟩ := parts
      exact ⟨before, behind, rfl, Nat.lt_of_le_of_lt (length_utf8_le (splitOnce_sublist hsplit).2) h⟩
  unfold Parameters.read
  rw [hparts]
  dsimp only
  apply Safe.bind (safe_percentDecode rawName)
  intro name _
  apply Safe.bind (safe_percentDecode rawValue)
  intro value hlength
  split
  · have htrim := length_utf8_le (trim_sublist value.toList)
    apply Safe.bind (safe_decodeBase32 (by omega))
    intro secret _
    exact ⟨hpositive, hten, hperiod⟩
  split
  · exact ⟨hpositive, hten, hperiod⟩
  split
  · refine ⟨?_, ?_, hperiod⟩
    · dsimp only
      split
      · split_ifs <;> omega
      · omega
    · dsimp only
      split
      · split_ifs <;> omega
      · omega
  split
  · refine ⟨hpositive, hten, ?_⟩
    dsimp only
    cases hfilter : (parseUnsigned 64 (trim value.toList)).filter fun parsed => decide (0 < parsed) with
    | none => exact by decide
    | some parsed => simpa using (Option.mem_filter_iff.mp hfilter).2
  · exact ⟨hpositive, hten, hperiod⟩

/-- What a seed is read to. -/
structure Usable (config : TotpConfig) : Prop where
  positive : 1 ≤ config.digits
  most : config.digits ≤ 10
  period : 0 < config.period

/-- INTERNAL: **any seed is read or refused.** -/
theorem safe_parse {seed : List Char} (h : (utf8 seed).length < 2 ^ 61) : Safe (parse seed) Usable := by
  have htrim : (utf8 (trim seed)).length < 2 ^ 61 := Nat.lt_of_le_of_lt (length_utf8_le (trim_sublist seed)) h
  have hbehind : ∀ {n before behind}, splitAtByte n (trim seed) = some (before, behind) →
      (utf8 behind).length < 2 ^ 61 := fun hsplit =>
    Nat.lt_of_le_of_lt (length_utf8_le (splitAtByte_sublist hsplit)) htrim
  unfold parse
  dsimp only
  split_ifs
  · unfold parseOtpauth
    apply Safe.bind (safe_okOr _ _)
    rintro ⟨before, behind⟩ hsplit
    apply Safe.bind (safe_okOr _ _)
    rintro ⟨path, query⟩ hquery
    apply Safe.bind (safe_refuseIf _ _)
    intro _ _
    apply Safe.bind (P := Ranged)
    · apply Safe.foldlM
      · intro read parameter hparameter hranged
        apply safe_read hranged
        have hpart := length_utf8_le (split_sublist '&' query parameter hparameter)
        have hwhole := length_utf8_le (splitOnce_sublist hquery).2
        have hrest := hbehind hsplit
        omega
      · exact ⟨by simp, by simp, by simp⟩
    · rintro read ⟨hpositive, hmost, hperiod⟩
      apply Safe.bind (safe_okOr _ _)
      intro secret _
      exact ⟨hpositive, hmost, hperiod⟩
  · apply Safe.bind (P := fun _ => True)
    · apply safe_decodeBase32
      cases hsplit : splitAtByte 8 (trim seed) with
      | none => decide
      | some parts => exact hbehind hsplit
    · intro secret _
      exact ⟨by simp, by simp, by simp⟩
  · apply Safe.bind (safe_decodeBase32 htrim)
    intro secret _
    exact ⟨by simp, by simp, by simp⟩

/-! ## Codes -/

/-- INTERNAL: characters of the Steam alphabet. -/
theorem safe_steamCode (count value : ℕ) : Safe (steamCode count value) fun code =>
    code.length = count ∧ ∀ c ∈ code, c ∈ STEAM_ALPHABET := by
  have hlength : STEAM_ALPHABET.length ≠ 0 := by decide
  induction count generalizing value with
  | zero => exact ⟨rfl, by simp⟩
  | succ count ih =>
    unfold steamCode
    apply Safe.bind (safe_rem hlength)
    rintro _ rfl
    apply Safe.bind (safe_index (Nat.mod_lt value (Nat.pos_of_ne_zero hlength)))
    intro c hc
    apply Safe.bind (safe_div hlength)
    rintro _ rfl
    apply Safe.bind (ih _)
    rintro code ⟨hcount, hall⟩
    refine ⟨by rw [List.length_cons, hcount], ?_⟩
    intro d hd
    rcases List.mem_cons.mp hd with rfl | hd
    · exact List.mem_of_getElem? hc
    · exact hall d hd

/-- INTERNAL: so many decimal digits. -/
theorem zeroPadded_digits {width n : ℕ} (hwidth : 0 < width) (h : n < 10 ^ width) :
    (zeroPadded width n).length = width ∧ ∀ c ∈ zeroPadded width n, isAsciiDigit c = true := by
  have hfits : (Nat.toDigits 10 n).length ≤ width := (Nat.length_toDigits_le_iff (by decide) hwidth).mpr h
  unfold zeroPadded
  constructor
  · rw [List.length_append, List.length_replicate]
    omega
  · intro c hc
    rcases List.mem_append.mp hc with hc | hc
    · rw [List.eq_of_mem_replicate hc]
      decide
    · exact isAsciiDigit_of_mem_toDigits n c hc

/-- The form of a code. -/
structure Code (config : TotpConfig) (code : List Char) : Prop where
  steam : config.steam = true → code.length = 5 ∧ ∀ c ∈ code, c ∈ STEAM_ALPHABET
  digits : config.steam = false → code.length = config.digits ∧ ∀ c ∈ code, isAsciiDigit c = true

/-- INTERNAL: **a code is cut out of any digest.** -/
theorem safe_generateConfig (hmac : Hmac) {config : TotpConfig} (h : Usable config) (timestamp : UInt64) :
    Safe (generateConfig hmac config timestamp) (Code config) := by
  unfold generateConfig
  apply Safe.bind (safe_okOr _ _)
  intro periods _
  apply Safe.bind (P := fun digest => 20 ≤ digest.length ∧ digest.length ≤ 64)
  · unfold Hmac.digest
    cases hdigest : hmac.compute config.algorithm config.secret (Frames.be 8 periods) with
    | error e => trivial
    | ok digest =>
      have hsize := hmac.size_compute _ _ _ _ hdigest
      dsimp only
      show 20 ≤ digest.length ∧ digest.length ≤ 64
      rw [hsize]
      cases config.algorithm <;> decide
  rintro digest ⟨hlong, hlimit⟩
  apply Safe.bind (safe_sub (by omega))
  rintro _ rfl
  apply Safe.bind (safe_index (by omega))
  intro last _
  have hoffset : last.toNat &&& 0x0f ≤ 15 := Nat.and_le_right
  apply Safe.bind (safe_add (by omega))
  rintro _ rfl
  apply Safe.bind (safe_window (by omega) (by omega))
  intro part _
  apply Safe.bind (safe_okOr _ _)
  intro part' _
  by_cases hsteam : config.steam = true
  · rw [if_pos hsteam]
    apply Safe.mono (safe_steamCode 5 _)
    intro code hcode
    exact ⟨fun _ => hcode, fun hno => absurd hsteam (by rw [hno]; decide)⟩
  · rw [if_neg hsteam]
    apply Safe.bind (safe_okOr _ _)
    intro modulus hmodulus
    have hpositive : 10 ^ config.digits ≠ 0 := Nat.ne_of_gt (Nat.pow_pos (by decide))
    obtain rfl : 10 ^ config.digits = modulus := by
      split at hmodulus
      · exact Option.some.inj hmodulus
      · cases hmodulus
    apply Safe.bind (safe_rem hpositive)
    rintro _ rfl
    exact ⟨fun hyes => absurd hyes hsteam,
      fun _ => zeroPadded_digits h.positive (Nat.mod_lt _ (Nat.pos_of_ne_zero hpositive))⟩

/-- A text in the memory of a process: hardware translates addresses of at most 57 bits. -/
structure InMemory where
  text : String
  addressable : text.utf8ByteSize < 2 ^ 57

theorem InMemory.capacity (seed : InMemory) : (utf8 seed.text.toList).length < 2 ^ 61 := by
  have hlength : (utf8 seed.text.toList).length = seed.text.utf8ByteSize := length_bytes seed.text
  have haddressable := seed.addressable
  omega

/-- An encoding with letters in either case and characters outside the alphabet inserted. -/
inductive Dressed : List Char → List Char → Prop where
  | nil : Dressed [] []
  | same {c d : Char} {text encoding : List Char} (hcase : toAsciiLowercase c = toAsciiLowercase d)
      (h : Dressed text encoding) : Dressed (c :: text) (d :: encoding)
  | inserted {c : Char} {text encoding : List Char} (hforeign : charDigit c = none)
      (h : Dressed text encoding) : Dressed (c :: text) encoding

/-- INTERNAL: the case of a letter does not matter. -/
theorem charDigit_toAsciiLowercase (c : Char) : charDigit (toAsciiLowercase c) = charDigit c := by
  have hlower := toNat_toAsciiLowercase c
  unfold charDigit
  dsimp only
  by_cases hupper : 65 ≤ c.toNat ∧ c.toNat ≤ 90
  · rw [if_pos hupper] at hlower
    rw [hlower, if_neg (by omega), if_pos (by omega), if_pos hupper]
    congr 1
  · rw [if_neg hupper] at hlower
    rw [hlower]

/-- INTERNAL: a dressed encoding has its digits. -/
theorem Dressed.digits {text encoding : List Char} (h : Dressed text encoding) :
    Base32.digits base32 text = Base32.digits base32 encoding := by
  unfold Base32.digits
  induction h with
  | nil => rfl
  | @same c d text encoding hcase _ ih =>
    have hdigit : base32.value c = base32.value d := by
      show charDigit c = charDigit d
      rw [← charDigit_toAsciiLowercase c, hcase, charDigit_toAsciiLowercase d]
    rw [List.filterMap_cons, List.filterMap_cons, hdigit, ih]
  | @inserted c text encoding hforeign _ ih =>
    rw [List.filterMap_cons, show base32.value c = none from hforeign]
    exact ih

theorem digits_padded (bytes : List UInt8) :
    Base32.digits base32 (Base32.padded base32 bytes) = Base32.digits base32 (Base32.encode base32 bytes) := by
  unfold Base32.padded Base32.digits
  rw [List.filterMap_append, List.filterMap_replicate_of_none (by decide), List.append_nil]

/-- What holds of every seed and every time. -/
structure Exact (hmac : Hmac) : Prop where
  /-- No generation faults. A code has the digits that its seed configures, one to ten of them, or
  five characters of the Steam alphabet. -/
  generates : ∀ (seed : InMemory) (timestamp : UInt64), Safe (generate hmac seed.text timestamp)
    fun code => ∃ config, parse seed.text.toList = .value config ∧
      1 ≤ config.digits ∧ config.digits ≤ 10 ∧ Code config code.toList
  /-- `decode_base32` is the bytes of the bit string of the alphabet's characters. -/
  decodes : ∀ value : InMemory, decodeBase32 value.text.toList =
    if Base32.decoded base32 value.text.toList = [] then .refuse "Invalid Base32 TOTP secret"
    else .value (Base32.decoded base32 value.text.toList)
  /-- It reads every encoding, with or without padding and however dressed. -/
  reads : ∀ (bytes : List UInt8) (value : InMemory), bytes ≠ [] →
    Dressed value.text.toList (Base32.encode base32 bytes) ∨
      Dressed value.text.toList (Base32.padded base32 bytes) →
    decodeBase32 value.text.toList = .value bytes
  /-- `percent_decode` inverts percent-encoding, -/
  inverts : ∀ (keeps : UInt8 → Bool) (upper : Bool) (text : String) (value : List Char),
    utf8 value = percentEncode keeps upper (bytes text) → percentDecode value = .value text
  /-- and refuses exactly what is malformed or no text. -/
  percent : ∀ value, PercentDecodes value

end VaultAccess.Analysis.Totps
