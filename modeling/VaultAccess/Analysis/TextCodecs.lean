import VaultAccess.Model.TextCodec
import VaultAccess.Analysis.Envelopes

/-!
# The companion's codecs are canonical

The encoder works on chunks of three bytes and the decoder on a register of bits; both are the
general unpadded base64 over the URL-safe alphabet, whose strict decoder refuses every text that
is not an encoding.
-/

set_option autoImplicit false

namespace VaultAccess.Analysis.TextCodecs

open VaultAccess.Library VaultAccess.Library.Text VaultAccess.Model VaultAccess.Model.Companion

/-! ## Encoding -/

/-- A character as a byte. -/
def charByte (c : Char) : UInt8 := UInt8.ofNat c.toNat

theorem getD_b64url : ∀ n < 64, B64URL.getD n 0 = charByte (Base64.urlSafe.char n) := by decide +kernel

theorem ofNat_charByte : ∀ n < 64,
    Char.ofNat (charByte (Base64.urlSafe.char n)).toNat = Base64.urlSafe.char n := by decide +kernel

theorem or_shiftLeft (a b i : ℕ) (h : b < 2 ^ i) : a <<< i ||| b = a * 2 ^ i + b := by
  rw [← Nat.shiftLeft_add_eq_or_of_lt h, Nat.shiftLeft_eq]

/-- INTERNAL: the bits of a whole chunk. -/
theorem chunkBits_three (a b c : UInt8) :
    chunkBits [a, b, c] = a.toNat * 65536 + (b.toNat * 256 + c.toNat) := by
  have hb := b.toNat_lt
  have hc := c.toNat_lt
  have hlow : b.toNat <<< 8 ||| c.toNat = b.toNat * 256 + c.toNat := or_shiftLeft _ _ 8 hc
  have hall := or_shiftLeft a.toNat (b.toNat * 256 + c.toNat) 16 (by omega)
  simp only [chunkBits, List.zipIdx_cons, List.zipIdx_nil, List.foldl_cons, List.foldl_nil]
  rw [Nat.zero_or, Nat.or_assoc]
  exact (congrArg _ hlow).trans hall

theorem chunkBits_two (a b : UInt8) : chunkBits [a, b] = chunkBits [a, b, 0] := by
  simp [chunkBits]

theorem chunkBits_one (a : UInt8) : chunkBits [a] = chunkBits [a, 0, 0] := by
  simp [chunkBits]

theorem sextet_of_bits (n k : ℕ) : (n >>> k) &&& 63 = n / 2 ^ k % 64 := by
  rw [Nat.shiftRight_eq_div_pow, show (63 : ℕ) = 2 ^ 6 - 1 from rfl, Nat.and_two_pow_sub_one_eq_mod]

/-- INTERNAL: a chunk as sextets. -/
theorem sextets_chunk {chunk : List UInt8} (hnonempty : chunk ≠ []) (hshort : chunk.length ≤ 3) :
    (List.range (chunk.length + 1)).map (fun i => chunkBits chunk / 2 ^ (18 - 6 * i) % 64) =
      Base64.sextets chunk := by
  match chunk with
  | [] => exact absurd rfl hnonempty
  | [a] =>
    have ha := a.toNat_lt
    have hbits := chunkBits_three a 0 0
    have hzero : (0 : UInt8).toNat = 0 := rfl
    have hlist : List.range 2 = [0, 1] := rfl
    rw [hzero] at hbits
    simp only [List.length_singleton, hlist, List.map_cons, List.map_nil, chunkBits_one, hbits, Base64.sextets,
      List.cons.injEq, and_true]
    omega
  | [a, b] =>
    have ha := a.toNat_lt
    have hb := b.toNat_lt
    have hbits := chunkBits_three a b 0
    have hzero : (0 : UInt8).toNat = 0 := rfl
    have hlist : List.range 3 = [0, 1, 2] := rfl
    rw [hzero] at hbits
    simp only [List.length_cons, List.length_nil, hlist, List.map_cons, List.map_nil, chunkBits_two, hbits,
      Base64.sextets, List.cons.injEq, and_true]
    omega
  | [a, b, c] =>
    have ha := a.toNat_lt
    have hb := b.toNat_lt
    have hc := c.toNat_lt
    have hbits := chunkBits_three a b c
    have hlist : List.range 4 = [0, 1, 2, 3] := rfl
    simp only [List.length_cons, List.length_nil, hlist, List.map_cons, List.map_nil, hbits, Base64.sextets,
      List.cons.injEq, and_true]
    omega
  | a :: b :: c :: d :: rest =>
    simp only [List.length_cons] at hshort
    omega

/-- INTERNAL: a chunk is encoded sextet by sextet. -/
theorem encodeChunk_eq {chunk : List UInt8} (hnonempty : chunk ≠ []) (hshort : chunk.length ≤ 3) :
    encodeChunk chunk = (Base64.sextets chunk).map fun n => charByte (Base64.urlSafe.char n) := by
  unfold encodeChunk
  rw [← sextets_chunk hnonempty hshort, List.map_map]
  apply List.map_congr_left
  intro i _
  simp only [Function.comp_apply]
  rw [sextet_of_bits, getD_b64url _ (Nat.mod_lt _ (by omega))]

/-- INTERNAL: the encoding, before its bytes become a text. -/
theorem flatMap_encodeChunk (data : List UInt8) :
    (chunks3 data).flatMap encodeChunk = (Base64.sextets data).map fun n => charByte (Base64.urlSafe.char n) := by
  induction data using Base64.sextets.induct with
  | case1 => rfl
  | case2 a => exact (List.append_nil _).trans (encodeChunk_eq (by simp) (by simp))
  | case3 a b => exact (List.append_nil _).trans (encodeChunk_eq (by simp) (by simp))
  | case4 a b c rest ih =>
    have hchunk := encodeChunk_eq (List.cons_ne_nil a [b, c]) (by simp)
    rw [chunks3, List.flatMap_cons, hchunk, ih]
    rfl

/-- INTERNAL: **the encoder is the general one.** -/
theorem toList_base64url (data : List UInt8) : (base64url data).toList = Base64.encode Base64.urlSafe data := by
  unfold base64url Base64.encode
  rw [flatMap_encodeChunk, String.toList_ofList, List.map_map]
  apply List.map_congr_left
  intro n hn
  exact ofNat_charByte n (Base64.sextets_lt data n hn)

/-- INTERNAL: the bytes of an encoding. -/
theorem bytes_base64url (data : List UInt8) :
    bytes (base64url data) = (Base64.sextets data).map fun n => charByte (Base64.urlSafe.char n) := by
  have hsmall : ∀ n < 64, (Base64.urlSafe.char n).toNat < 128 := by decide +kernel
  have hutf8 : ∀ digits : List ℕ, (∀ n ∈ digits, n < 64) → utf8 (digits.map Base64.urlSafe.char) =
      digits.map fun n => charByte (Base64.urlSafe.char n) := by
    intro digits hdigits
    induction digits with
    | nil => rfl
    | cons n digits ih =>
      simp only [List.mem_cons, forall_eq_or_imp] at hdigits
      have hchar := utf8EncodeChar_of_utf8Size (utf8Size_eq_one_iff.mpr (hsmall n hdigits.1))
      have hrest := ih hdigits.2
      unfold utf8 at hrest ⊢
      rw [List.map_cons, List.flatMap_cons, hchar, hrest]
      rfl
  unfold bytes
  rw [toList_base64url]
  exact hutf8 _ (Base64.sextets_lt data)

/-! ## Decoding -/

theorem idxOf_b64url : ∀ n < 64, B64URL.idxOf? (charByte (Base64.urlSafe.char n)) = some n := by decide +kernel

/-- INTERNAL: **a sextet enters the register.** -/
theorem decodeByte_sextet (d : Decoding) {n : ℕ} (hn : n < 64) :
    decodeByte d (charByte (Base64.urlSafe.char n)) =
      if 8 ≤ d.count + 6 then some ⟨(d.bits * 64 + n) % 2 ^ (d.count - 2), d.count - 2,
        d.out ++ [UInt8.ofNat ((d.bits * 64 + n) / 2 ^ (d.count - 2))]⟩
      else some ⟨d.bits * 64 + n, d.count + 6, d.out⟩ := by
  have hcount : d.count + 6 - 8 = d.count - 2 := by omega
  simp only [decodeByte, idxOf_b64url n hn, Option.bind_eq_bind, Option.bind_some, Option.pure_def, hcount,
    or_shiftLeft d.bits n 6 hn, Nat.one_shiftLeft, Nat.and_two_pow_sub_one_eq_mod, Nat.shiftRight_eq_div_pow]
  rfl

/-- INTERNAL: the sextets of a text enter one after the other. -/
def decodeSextets (d : Decoding) (digits : List ℕ) : Option Decoding :=
  (digits.map fun n => charByte (Base64.urlSafe.char n)).foldlM decodeByte d

theorem decodeSextets_cons (d : Decoding) (n : ℕ) (digits : List ℕ) :
    decodeSextets d (n :: digits) = (decodeByte d (charByte (Base64.urlSafe.char n))).bind (decodeSextets · digits) := by
  simp [decodeSextets]

/-- INTERNAL: the first two sextets of a group. -/
theorem decodeSextets_first (out : List UInt8) {p q : ℕ} (hp : p < 64) (hq : q < 64) (digits : List ℕ) :
    decodeSextets ⟨0, 0, out⟩ (p :: q :: digits) =
      decodeSextets ⟨(p * 64 + q) % 16, 4, out ++ [UInt8.ofNat ((p * 64 + q) / 16)]⟩ digits := by
  rw [decodeSextets_cons, decodeByte_sextet _ hp, if_neg (by simp), Option.bind_some, decodeSextets_cons,
    decodeByte_sextet _ hq, if_pos (by simp), Option.bind_some]
  simp

theorem decodeSextets_second (out : List UInt8) (bits : ℕ) {r : ℕ} (hr : r < 64) (digits : List ℕ) :
    decodeSextets ⟨bits, 4, out⟩ (r :: digits) =
      decodeSextets ⟨(bits * 64 + r) % 4, 2, out ++ [UInt8.ofNat ((bits * 64 + r) / 4)]⟩ digits := by
  rw [decodeSextets_cons, decodeByte_sextet _ hr, if_pos (by simp), Option.bind_some]
  rfl

theorem decodeSextets_third (out : List UInt8) (bits : ℕ) {r : ℕ} (hr : r < 64) (digits : List ℕ) :
    decodeSextets ⟨bits, 2, out⟩ (r :: digits) =
      decodeSextets ⟨0, 0, out ++ [UInt8.ofNat (bits * 64 + r)]⟩ digits := by
  rw [decodeSextets_cons, decodeByte_sextet _ hr, if_pos (by simp), Option.bind_some]
  simp [Nat.mod_one]

/-- INTERNAL: **the sextets of bytes give the bytes.** -/
theorem decodeSextets_sextets (data out : List UInt8) :
    (decodeSextets ⟨0, 0, out⟩ (Base64.sextets data)).map (·.out) = some (out ++ data) := by
  induction data using Base64.sextets.induct generalizing out with
  | case1 => simp [decodeSextets, Base64.sextets]
  | case2 a =>
    have ha := a.toNat_lt
    have hbyte : UInt8.ofNat ((a.toNat / 4 * 64 + a.toNat % 4 * 16) / 16) = a := Base64.ofNat_of_eq a _ (by omega)
    rw [Base64.sextets, decodeSextets_first out (by omega) (by omega), hbyte]
    rfl
  | case3 a b =>
    have ha := a.toNat_lt
    have hb := b.toNat_lt
    have hfirst : UInt8.ofNat ((a.toNat / 4 * 64 + (a.toNat % 4 * 16 + b.toNat / 16)) / 16) = a :=
      Base64.ofNat_of_eq a _ (by omega)
    have hsecond : UInt8.ofNat (((a.toNat / 4 * 64 + (a.toNat % 4 * 16 + b.toNat / 16)) % 16 * 64 +
        b.toNat % 16 * 4) / 4) = b := Base64.ofNat_of_eq b _ (by omega)
    rw [Base64.sextets, decodeSextets_first out (by omega) (by omega), decodeSextets_second _ _ (by omega), hfirst,
      hsecond, List.append_assoc]
    rfl
  | case4 a b c rest ih =>
    have ha := a.toNat_lt
    have hb := b.toNat_lt
    have hc := c.toNat_lt
    have hfirst : UInt8.ofNat ((a.toNat / 4 * 64 + (a.toNat % 4 * 16 + b.toNat / 16)) / 16) = a :=
      Base64.ofNat_of_eq a _ (by omega)
    have hsecond : UInt8.ofNat (((a.toNat / 4 * 64 + (a.toNat % 4 * 16 + b.toNat / 16)) % 16 * 64 +
        (b.toNat % 16 * 4 + c.toNat / 64)) / 4) = b := Base64.ofNat_of_eq b _ (by omega)
    have hthird : UInt8.ofNat (((a.toNat / 4 * 64 + (a.toNat % 4 * 16 + b.toNat / 16)) % 16 * 64 +
        (b.toNat % 16 * 4 + c.toNat / 64)) % 4 * 64 + c.toNat % 64) = c := Base64.ofNat_of_eq c _ (by omega)
    rw [Base64.sextets, decodeSextets_first out (by omega) (by omega), decodeSextets_second _ _ (by omega),
      decodeSextets_third _ _ (by omega), hfirst, hsecond, hthird, ih]
    simp

/-- INTERNAL: **decoding an encoding gives the bytes.** -/
theorem base64urlDecode_base64url (data : List UInt8) : base64urlDecode (base64url data) = some data := by
  have hloop := decodeSextets_sextets data []
  obtain ⟨d, hd, hout⟩ := Option.map_eq_some_iff.mp hloop
  rw [List.nil_append] at hout
  unfold base64urlDecode
  rw [bytes_base64url]
  unfold decodeSextets at hd
  simp [hd, hout]

/-- INTERNAL: **what is accepted is the encoding of the result.** -/
theorem base64url_of_decode {text : String} {data : List UInt8} (h : base64urlDecode text = some data) :
    base64url data = text := by
  unfold base64urlDecode at h
  simp only [Option.bind_eq_bind, Option.bind_eq_some_iff] at h
  obtain ⟨d, -, hcanonical⟩ := h
  split_ifs at hcanonical with hsame
  rw [← Option.some.inj hcanonical]
  exact hsame

/-- INTERNAL: **the decoder is the general strict one.** -/
theorem base64urlDecode_eq (text : String) :
    base64urlDecode text = Base64.decode Base64.urlSafe text.toList := by
  have hiff : ∀ data, base64urlDecode text = some data ↔
      Base64.decode Base64.urlSafe text.toList = some data := by
    intro data
    constructor
    · intro h
      rw [← base64url_of_decode h, toList_base64url]
      exact Base64.decode_encode Base64.urlSafe data
    · intro h
      have hencode := Base64.encode_of_decode (Base64.tableChar_tableValue '-' '_') h
      have htext : base64url data = text := by
        rw [← String.toList_inj, toList_base64url, hencode]
      rw [← htext]
      exact base64urlDecode_base64url data
  cases h : Base64.decode Base64.urlSafe text.toList with
  | some data => exact (hiff data).mpr h
  | none =>
    cases h' : base64urlDecode text with
    | none => rfl
    | some data =>
      rw [(hiff data).mp h'] at h
      cases h

/-! ## Hexadecimal texts -/

theorem hexNibble_hexDigit : ∀ k < 256,
    hexNibble (charByte (Json.hexDigit (k / 16))) <<< 4 ||| hexNibble (charByte (Json.hexDigit (k % 16))) =
      UInt8.ofNat k := by decide +kernel

/-- INTERNAL: the bytes of hexadecimal digits. -/
theorem utf8_of_isLowerHex {text : List Char} (h : ∀ c ∈ text, isLowerHex c = true) :
    utf8 text = text.map charByte := by
  induction text with
  | nil => rfl
  | cons c text ih =>
    simp only [List.mem_cons, forall_eq_or_imp] at h
    have hsmall := ascii_of_isLowerHex c h.1
    have hchar := utf8EncodeChar_of_utf8Size (utf8Size_eq_one_iff.mpr hsmall)
    have hrest := ih h.2
    unfold utf8 at hrest ⊢
    rw [List.flatMap_cons, hchar, hrest]
    rfl

theorem bytes_hex (data : List UInt8) : bytes (Companion.hex data) = (Model.hex data).map charByte := by
  unfold bytes Companion.hex
  rw [String.toList_ofList]
  exact utf8_of_isLowerHex fun c hc => isLowerHex_of_mem_hex data c hc

/-- INTERNAL: **pairs of digits give the bytes back.** -/
theorem hexPairs_hex (data : List UInt8) : hexPairs (bytes (Companion.hex data)) = data := by
  rw [bytes_hex]
  induction data with
  | nil => rfl
  | cons b data ih =>
    have hbyte := hexNibble_hexDigit b.toNat b.toNat_lt
    rw [UInt8.ofNat_toNat] at hbyte
    simp only [Model.hex, List.flatMap_cons, List.cons_append, List.nil_append, List.map_cons, hexPairs, hbyte]
    exact congrArg _ ih

/-- INTERNAL: two digits a byte. -/
theorem length_hexPairs {digits : List UInt8} (h : 2 ∣ digits.length) :
    2 * (hexPairs digits).length = digits.length := by
  induction digits using hexPairs.induct with
  | case1 high low rest ih =>
    simp only [List.length_cons] at h
    have hrest := ih (by omega)
    simp only [hexPairs, List.length_cons]
    omega
  | case2 digits hshort =>
    cases digits with
    | nil => rfl
    | cons high rest =>
      cases rest with
      | nil =>
        rw [List.length_singleton] at h
        omega
      | cons low rest => exact absurd rfl (hshort high low rest)

/-- INTERNAL: which texts are digests. -/
theorem validHex_iff (text : String) :
    validHex text = true ↔ text.toList.length = 64 ∧ ∀ c ∈ text.toList, isLowerHex c = true := by
  simp only [validHex, Bool.and_eq_true, decide_eq_true_eq, List.all_eq_true]
  constructor
  · rintro ⟨hsize, hdigits⟩
    refine ⟨?_, hdigits⟩
    rw [← hsize, ← utf8ByteSize_of_ascii text.toList fun c hc => ascii_of_isLowerHex c (hdigits c hc),
      String.ofList_toList]
  · rintro ⟨hlength, hdigits⟩
    refine ⟨?_, hdigits⟩
    rw [← hlength, ← utf8ByteSize_of_ascii text.toList fun c hc => ascii_of_isLowerHex c (hdigits c hc),
      String.ofList_toList]

theorem validHex_hex {data : List UInt8} (h : data.length = 32) : validHex (Companion.hex data) = true := by
  rw [validHex_iff, Companion.hex, String.toList_ofList, length_hex, h]
  exact ⟨rfl, fun c hc => isLowerHex_of_mem_hex data c hc⟩

/-- INTERNAL: **a text is the encoding of what it is decoded to.** -/
theorem hex_of_hex32 {text : String} {data : List UInt8} (h : hex32 text = some data) :
    data.length = 32 ∧ Companion.hex data = text := by
  unfold hex32 at h
  split_ifs at h with hvalid
  obtain rfl := Option.some.inj h
  obtain ⟨hlength, hdigits⟩ := (validHex_iff text).mp hvalid
  have htext : bytes text = text.toList.map charByte := utf8_of_isLowerHex hdigits
  have hsize : (bytes text).length = 64 := by rw [htext, List.length_map, hlength]
  have hpairs := length_hexPairs (show 2 ∣ (bytes text).length by omega)
  have hhex : bytes (Companion.hex (hexPairs (bytes text))) =
      (Model.hex (hexPairs (bytes text))).map charByte := bytes_hex _
  refine ⟨by omega, ?_⟩
  apply bytes_injective
  apply hexPairs_inj
  · unfold bytes Companion.hex
    rw [String.toList_ofList]
    exact mem_hexBytes fun c hc => isLowerHex_of_mem_hex _ c hc
  · exact mem_hexBytes hdigits
  · rw [hhex, List.length_map, length_hex]
    omega
  · rw [hhex, List.length_map, length_hex]
    exact dvd_mul_right 2 _
  · exact hexPairs_hex _

/-! ## Both codecs -/

/-- **The codecs of the companion are canonical.** -/
structure Canonical : Prop where
  /-- Every byte string is read back. -/
  decoded : ∀ data, base64urlDecode (base64url data) = some data
  /-- What is accepted is the encoding of the result. -/
  canonical : ∀ text data, base64urlDecode text = some data → base64url data = text
  injective : ∀ text text' data, base64urlDecode text = some data → base64urlDecode text' = some data →
    text = text'
  /-- Foreign characters, padding, a single last character and stray last bits are refused. -/
  strict : ∀ text, base64urlDecode text = Base64.decode Base64.urlSafe text.toList
  digests : ∀ text, (hex32 text).isSome = true ↔
    text.toList.length = 64 ∧ ∀ c ∈ text.toList, isLowerHex c = true
  digestDecoded : ∀ data, data.length = 32 → hex32 (Companion.hex data) = some data
  digestCanonical : ∀ text data, hex32 text = some data → data.length = 32 ∧ Companion.hex data = text

/-- **base64url and hexadecimal texts are told by their bytes, and accepted in one spelling only.**
SRCLINE: approval_v2.rs:116-175 -/
theorem codecs_canonical : Canonical where
  decoded := base64urlDecode_base64url
  canonical _ _ := base64url_of_decode
  injective text text' data h h' := by rw [← base64url_of_decode h, ← base64url_of_decode h']
  strict := base64urlDecode_eq
  digests text := by
    rw [← validHex_iff]
    unfold hex32
    split_ifs with hvalid
    · simp [hvalid]
    · simp [hvalid]
  digestDecoded data h := by
    unfold hex32
    rw [if_pos (validHex_hex h), hexPairs_hex]
  digestCanonical _ _ := hex_of_hex32

end VaultAccess.Analysis.TextCodecs
