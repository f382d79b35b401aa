import Mathlib.Data.List.Basic
import Mathlib.Tactic.SplitIfs

/-!
# Base64 (RFC 4648) over an arbitrary alphabet

Three bytes become four sextets; a final group of one or two bytes becomes two
or three sextets, followed by `=` signs when the engine pads. The strict decoder
rejects foreign characters, a dangling single character, non-zero trailing bits,
and padding that is not exactly the one the engine writes.

An `Alphabet` carries the two directions of the character table with the proof
that they are inverse on sextets, so every codec below round trips for every
alphabet.
-/

set_option autoImplicit false

namespace VaultAccess.Library.Base64

/-- A base64 character table: `char` is meant for sextets, `value` inverts it there,
and the padding sign is not one of its characters. -/
structure Alphabet where
  char : ℕ → Char
  value : Char → Option ℕ
  value_char : ∀ n < 64, value (char n) = some n
  value_lt : ∀ c n, value c = some n → n < 64
  value_pad : value '=' = none

/-- The letters, digits and the two last characters of a table. -/
def tableChar (plus slash : Char) (n : ℕ) : Char :=
  if n < 26 then Char.ofNat (n + 65)
  else if n < 52 then Char.ofNat (n - 26 + 97)
  else if n < 62 then Char.ofNat (n - 52 + 48)
  else if n = 62 then plus else slash

/-- The position of a character in a table with the two given last characters. -/
def tableValue (plus slash : Char) (c : Char) : Option ℕ :=
  if 'A' ≤ c ∧ c ≤ 'Z' then some (c.toNat - 65)
  else if 'a' ≤ c ∧ c ≤ 'z' then some (c.toNat - 97 + 26)
  else if '0' ≤ c ∧ c ≤ '9' then some (c.toNat - 48 + 52)
  else if c = plus then some 62
  else if c = slash then some 63
  else none

/-- INTERNAL: every table position is a sextet. -/
theorem tableValue_lt (plus slash c : Char) (n : ℕ) (h : tableValue plus slash c = some n) :
    n < 64 := by
  unfold tableValue at h
  split_ifs at h with h1 h2 h3 h4 h5
  · have : c.toNat ≤ 90 := h1.2
    simp only [Option.some.injEq] at h
    omega
  · have : c.toNat ≤ 122 := h2.2
    simp only [Option.some.injEq] at h
    omega
  · have : c.toNat ≤ 57 := h3.2
    simp only [Option.some.injEq] at h
    omega
  · simp only [Option.some.injEq] at h
    omega
  · simp only [Option.some.injEq] at h
    omega

/-- The URL-safe alphabet. -/
def urlSafe : Alphabet where
  char := tableChar '-' '_'
  value := tableValue '-' '_'
  value_char := by decide
  value_lt := tableValue_lt '-' '_'
  value_pad := by decide

/-- The standard alphabet. -/
def standard : Alphabet where
  char := tableChar '+' '/'
  value := tableValue '+' '/'
  value_char := by decide
  value_lt := tableValue_lt '+' '/'
  value_pad := by decide

/-- Sextets of a byte string, most significant bits first. -/
def sextets : List UInt8 → List ℕ
  | [] => []
  | [a] => [a.toNat / 4, a.toNat % 4 * 16]
  | [a, b] => [a.toNat / 4, a.toNat % 4 * 16 + b.toNat / 16, b.toNat % 16 * 4]
  | a :: b :: c :: rest =>
    a.toNat / 4 :: (a.toNat % 4 * 16 + b.toNat / 16) ::
      (b.toNat % 16 * 4 + c.toNat / 64) :: c.toNat % 64 :: sextets rest

/-- Bytes of a sextet string; the unused low bits of a final group must be zero. -/
def unsextets : List ℕ → Option (List UInt8)
  | [] => some []
  | [_] => none
  | [p, q] =>
    if q % 16 = 0 then some [UInt8.ofNat (p * 4 + q / 16)] else none
  | [p, q, r] =>
    if r % 4 = 0 then
      some [UInt8.ofNat (p * 4 + q / 16), UInt8.ofNat (q % 16 * 16 + r / 4)]
    else none
  | p :: q :: r :: s :: rest => do
    let tail ← unsextets rest
    pure (UInt8.ofNat (p * 4 + q / 16) :: UInt8.ofNat (q % 16 * 16 + r / 4) ::
      UInt8.ofNat (r % 4 * 64 + s) :: tail)

theorem ofNat_of_eq (a : UInt8) (n : ℕ) (h : n = a.toNat) : UInt8.ofNat n = a := by
  subst h
  exact UInt8.ofNat_toNat

/-- INTERNAL: regrouping the sextets of a byte string gives the byte string. -/
theorem unsextets_sextets (bytes : List UInt8) : unsextets (sextets bytes) = some bytes := by
  induction bytes using sextets.induct with
  | case1 => rfl
  | case2 a =>
    have ha := a.toNat_lt
    have h1 : UInt8.ofNat (a.toNat / 4 * 4 + a.toNat % 4 * 16 / 16) = a :=
      ofNat_of_eq a _ (by omega)
    have h2 : a.toNat % 4 * 16 % 16 = 0 := by omega
    simp only [sextets, unsextets, h1, h2, if_true]
  | case3 a b =>
    have ha := a.toNat_lt
    have hb := b.toNat_lt
    have h1 : UInt8.ofNat (a.toNat / 4 * 4 + (a.toNat % 4 * 16 + b.toNat / 16) / 16) = a :=
      ofNat_of_eq a _ (by omega)
    have h2 : UInt8.ofNat ((a.toNat % 4 * 16 + b.toNat / 16) % 16 * 16 + b.toNat % 16 * 4 / 4) = b :=
      ofNat_of_eq b _ (by omega)
    have h3 : b.toNat % 16 * 4 % 4 = 0 := by omega
    simp only [sextets, unsextets, h1, h2, h3, if_true]
  | case4 a b c rest ih =>
    have ha := a.toNat_lt
    have hb := b.toNat_lt
    have hc := c.toNat_lt
    have h1 : UInt8.ofNat (a.toNat / 4 * 4 + (a.toNat % 4 * 16 + b.toNat / 16) / 16) = a :=
      ofNat_of_eq a _ (by omega)
    have h2 : UInt8.ofNat ((a.toNat % 4 * 16 + b.toNat / 16) % 16 * 16 +
        (b.toNat % 16 * 4 + c.toNat / 64) / 4) = b :=
      ofNat_of_eq b _ (by omega)
    have h3 : UInt8.ofNat ((b.toNat % 16 * 4 + c.toNat / 64) % 4 * 64 + c.toNat % 64) = c :=
      ofNat_of_eq c _ (by omega)
    simp only [sextets, unsextets, ih, h1, h2, h3, Option.bind_eq_bind, Option.bind_some,
      Option.pure_def]

/-- INTERNAL: sextets stay below 64. -/
theorem sextets_lt (bytes : List UInt8) : ∀ n ∈ sextets bytes, n < 64 := by
  induction bytes using sextets.induct with
  | case1 => simp [sextets]
  | case2 a =>
    have ha := a.toNat_lt
    simp only [sextets, List.mem_cons, List.not_mem_nil, or_false, forall_eq_or_imp, forall_eq]
    omega
  | case3 a b =>
    have ha := a.toNat_lt
    have hb := b.toNat_lt
    simp only [sextets, List.mem_cons, List.not_mem_nil, or_false, forall_eq_or_imp, forall_eq]
    omega
  | case4 a b c rest ih =>
    have ha := a.toNat_lt
    have hb := b.toNat_lt
    have hc := c.toNat_lt
    simp only [sextets, List.mem_cons, forall_eq_or_imp]
    exact ⟨by omega, by omega, by omega, by omega, ih⟩

/-- Unpadded encoding. -/
def encode (A : Alphabet) (bytes : List UInt8) : List Char :=
  (sextets bytes).map A.char

/-- Unpadded strict decoding. -/
def decode (A : Alphabet) (text : List Char) : Option (List UInt8) := do
  let digits ← text.mapM A.value
  unsextets digits

/-- INTERNAL: reading the characters of a list of sextets gives the sextets. -/
theorem mapM_value_map_char (A : Alphabet) (digits : List ℕ) (h : ∀ n ∈ digits, n < 64) :
    (digits.map A.char).mapM A.value = some digits := by
  induction digits with
  | nil => rfl
  | cons n rest ih =>
    have hn : A.value (A.char n) = some n := A.value_char n (h n (by simp))
    have hrest := ih (fun m hm => h m (by simp [hm]))
    simp only [List.map_cons, List.mapM_cons, hn, hrest, Option.bind_eq_bind, Option.bind_some,
      Option.pure_def]

/-- **Unpadded base64 round trips**: decoding an encoding returns the bytes. -/
theorem decode_encode (A : Alphabet) (bytes : List UInt8) :
    decode A (encode A bytes) = some bytes := by
  unfold decode encode
  rw [mapM_value_map_char A _ (sextets_lt bytes)]
  simp only [Option.bind_eq_bind, Option.bind_some]
  exact unsextets_sextets bytes

/-! ## What is accepted is canonical -/

/-- INTERNAL: a character of a table is the one at its position. -/
theorem tableChar_tableValue (plus slash c : Char) (n : ℕ) (h : tableValue plus slash c = some n) :
    tableChar plus slash n = c := by
  unfold tableValue at h
  split_ifs at h with h1 h2 h3 h4 h5
  · have hlow : 65 ≤ c.toNat := h1.1
    have hhigh : c.toNat ≤ 90 := h1.2
    obtain rfl := Option.some.inj h
    rw [tableChar, if_pos (by omega), Nat.sub_add_cancel hlow, Char.ofNat_toNat]
  · have hlow : 97 ≤ c.toNat := h2.1
    have hhigh : c.toNat ≤ 122 := h2.2
    obtain rfl := Option.some.inj h
    rw [tableChar, if_neg (by omega), if_pos (by omega), Nat.add_sub_cancel, Nat.sub_add_cancel hlow,
      Char.ofNat_toNat]
  · have hlow : 48 ≤ c.toNat := h3.1
    have hhigh : c.toNat ≤ 57 := h3.2
    obtain rfl := Option.some.inj h
    rw [tableChar, if_neg (by omega), if_neg (by omega), if_pos (by omega), Nat.add_sub_cancel,
      Nat.sub_add_cancel hlow, Char.ofNat_toNat]
  · obtain rfl := Option.some.inj h
    rw [h4]
    rfl
  · obtain rfl := Option.some.inj h
    rw [h5]
    rfl

theorem toNat_ofNat {n : ℕ} (h : n < 256) : (UInt8.ofNat n).toNat = n := UInt8.toNat_ofNat_of_lt' h

/-- INTERNAL: the sextets that were regrouped. -/
theorem sextets_of_unsextets {digits : List ℕ} {bytes : List UInt8} (hlt : ∀ n ∈ digits, n < 64)
    (h : unsextets digits = some bytes) : sextets bytes = digits := by
  induction digits using unsextets.induct generalizing bytes with
  | case1 =>
    obtain rfl := Option.some.inj h
    rfl
  | case2 p => simp [unsextets] at h
  | case3 p q hq =>
    simp only [List.mem_cons, List.not_mem_nil, or_false, forall_eq_or_imp, forall_eq] at hlt
    rw [unsextets, if_pos hq] at h
    obtain rfl := Option.some.inj h
    have hbyte : (UInt8.ofNat (p * 4 + q / 16)).toNat = p * 4 + q / 16 := toNat_ofNat (by omega)
    simp only [sextets, hbyte, List.cons.injEq, and_true]
    omega
  | case4 p q hq => simp [unsextets, hq] at h
  | case5 p q r hr =>
    simp only [List.mem_cons, List.not_mem_nil, or_false, forall_eq_or_imp, forall_eq] at hlt
    rw [unsextets, if_pos hr] at h
    obtain rfl := Option.some.inj h
    have hfirst : (UInt8.ofNat (p * 4 + q / 16)).toNat = p * 4 + q / 16 := toNat_ofNat (by omega)
    have hsecond : (UInt8.ofNat (q % 16 * 16 + r / 4)).toNat = q % 16 * 16 + r / 4 :=
      toNat_ofNat (by omega)
    simp only [sextets, hfirst, hsecond, List.cons.injEq, and_true]
    omega
  | case6 p q r hr => simp [unsextets, hr] at h
  | case7 p q r s rest ih =>
    simp only [List.mem_cons, forall_eq_or_imp] at hlt
    obtain ⟨hp, hq, hr, hs, hrest⟩ := hlt
    simp only [unsextets, Option.bind_eq_bind, Option.bind_eq_some_iff, Option.pure_def, Option.some.injEq] at h
    obtain ⟨tail, htail, rfl⟩ := h
    have hfirst : (UInt8.ofNat (p * 4 + q / 16)).toNat = p * 4 + q / 16 := toNat_ofNat (by omega)
    have hsecond : (UInt8.ofNat (q % 16 * 16 + r / 4)).toNat = q % 16 * 16 + r / 4 :=
      toNat_ofNat (by omega)
    have hthird : (UInt8.ofNat (r % 4 * 64 + s)).toNat = r % 4 * 64 + s := toNat_ofNat (by omega)
    simp only [sextets, hfirst, hsecond, hthird, ih hrest htail, List.cons.injEq, and_true]
    omega

/-- INTERNAL: the characters of the digits that were read. -/
theorem map_char_of_mapM {A : Alphabet} (hchar : ∀ c n, A.value c = some n → A.char n = c) {text : List Char}
    {digits : List ℕ} (h : text.mapM A.value = some digits) :
    digits.map A.char = text ∧ ∀ n ∈ digits, n < 64 := by
  induction text generalizing digits with
  | nil =>
    obtain rfl := Option.some.inj h
    simp
  | cons c text ih =>
    simp only [List.mapM_cons, Option.bind_eq_bind, Option.bind_eq_some_iff, Option.pure_def,
      Option.some.injEq] at h
    obtain ⟨n, hn, rest, hrest, rfl⟩ := h
    obtain ⟨hmap, hlt⟩ := ih hrest
    refine ⟨by simp [hchar c n hn, hmap], ?_⟩
    simp only [List.mem_cons, forall_eq_or_imp]
    exact ⟨A.value_lt c n hn, hlt⟩

/-- **Strict decoding is canonical**: what is accepted is the encoding of the result. -/
theorem encode_of_decode {A : Alphabet} (hchar : ∀ c n, A.value c = some n → A.char n = c) {text : List Char}
    {bytes : List UInt8} (h : decode A text = some bytes) : encode A bytes = text := by
  unfold decode at h
  simp only [Option.bind_eq_bind, Option.bind_eq_some_iff] at h
  obtain ⟨digits, hdigits, hbytes⟩ := h
  obtain ⟨hmap, hlt⟩ := map_char_of_mapM hchar hdigits
  rw [encode, sextets_of_unsextets hlt hbytes, hmap]
/-- The number of padding signs after an encoding of the given unpadded length. -/
def padLength (length : ℕ) : ℕ := (4 - length % 4) % 4

/-- Padded strict decoding: exactly the padding the encoder writes is accepted. -/
def decodePadded (A : Alphabet) (text : List Char) : Option (List UInt8) :=
  let body := text.takeWhile (· ≠ '=')
  if text = body ++ List.replicate (padLength body.length) '=' then decode A body else none

theorem value_isSome_of_mem_encode (A : Alphabet) (bytes : List UInt8) {c : Char}
    (h : c ∈ encode A bytes) : (A.value c).isSome = true := by
  obtain ⟨n, hn, rfl⟩ := List.mem_map.mp h
  rw [A.value_char n (sextets_lt bytes n hn)]
  rfl

/-- INTERNAL: none of them is the padding sign. -/
theorem ne_pad_of_mem_encode (A : Alphabet) (bytes : List UInt8) {c : Char}
    (h : c ∈ encode A bytes) : c ≠ '=' := by
  rintro rfl
  have hvalue := value_isSome_of_mem_encode A bytes h
  rw [A.value_pad] at hvalue
  cases hvalue

/-- **Padded base64 round trips.** -/
theorem decodePadded_encode (A : Alphabet) (bytes : List UInt8) :
    decodePadded A (encode A bytes ++
      List.replicate (padLength (encode A bytes).length) '=') = some bytes := by
  have hbody : (encode A bytes ++ List.replicate (padLength (encode A bytes).length) '=').takeWhile
      (· ≠ '=') = encode A bytes := by
    rw [List.takeWhile_append_of_pos fun c hc => by simpa using ne_pad_of_mem_encode A bytes hc]
    cases padLength (encode A bytes).length with
    | zero => simp
    | succ n => simp [List.replicate_succ]
  unfold decodePadded
  rw [hbody, if_pos rfl]
  exact decode_encode A bytes

/-- The unpadded length of an encoding. -/
def encodedLength (n : ℕ) : ℕ := (4 * n + 2) / 3

/-- INTERNAL: the length of an unpadded encoding. -/
theorem length_encode (A : Alphabet) (bytes : List UInt8) :
    (encode A bytes).length = encodedLength bytes.length := by
  unfold encode encodedLength
  rw [List.length_map]
  induction bytes using sextets.induct with
  | case1 => rfl
  | case2 a => simp [sextets]
  | case3 a b => simp [sextets]
  | case4 a b c rest ih =>
    simp only [sextets, List.length_cons, ih]
    omega

end VaultAccess.Library.Base64
