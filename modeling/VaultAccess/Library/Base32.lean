import Mathlib.Algebra.Group.Nat.Defs
import Mathlib.Data.List.Induction
import Mathlib.Tactic.SplitIfs

/-!
# Bit strings and base32 (RFC 4648) over an arbitrary alphabet

A bit string is cut into whole bytes, and a leftover of fewer than eight bits is dropped. A
base32 text stands for the bit string of its digits, five bits each, and characters outside the
alphabet stand for nothing. Reading what the encoder writes gives the bytes back.
-/

set_option autoImplicit false

namespace VaultAccess.Library

namespace Bits

/-- The lowest `width` bits of a number, highest first. -/
def msb : ℕ → ℕ → List Bool
  | 0, _ => []
  | width + 1, n => msb width (n / 2) ++ [decide (n % 2 = 1)]

/-- The number of a bit string. -/
def number (bits : List Bool) : ℕ := bits.foldl (fun n bit => 2 * n + bit.toNat) 0

/-- The bits of bytes. -/
def ofBytes (bytes : List UInt8) : List Bool := bytes.flatMap fun b => msb 8 b.toNat

/-- The whole bytes of a bit string. -/
def wholeBytes : List Bool → List UInt8
  | a :: b :: c :: d :: e :: f :: g :: h :: rest =>
    UInt8.ofNat (number [a, b, c, d, e, f, g, h]) :: wholeBytes rest
  | _ => []

@[simp]
theorem length_msb (width n : ℕ) : (msb width n).length = width := by
  induction width generalizing n with
  | zero => rfl
  | succ width ih => rw [msb, List.length_append, ih, List.length_singleton]

/-- **Bits below bits.** -/
theorem msb_append (high : ℕ) {low n m : ℕ} (h : m < 2 ^ low) :
    msb (high + low) (n * 2 ^ low + m) = msb high n ++ msb low m := by
  induction low generalizing m with
  | zero =>
    obtain rfl : m = 0 := Nat.lt_one_iff.mp h
    simp [msb]
  | succ low ih =>
    rw [Nat.pow_succ] at h ⊢
    have hhalf : (n * (2 ^ low * 2) + m) / 2 = n * 2 ^ low + m / 2 := by
      rw [← Nat.mul_assoc]
      omega
    have hparity : (n * (2 ^ low * 2) + m) % 2 = m % 2 := by
      rw [← Nat.mul_assoc]
      omega
    rw [← Nat.add_assoc, msb, msb, hhalf, hparity, ih (by omega), List.append_assoc]

theorem number_snoc (bits : List Bool) (bit : Bool) : number (bits ++ [bit]) = 2 * number bits + bit.toNat := by
  rw [number, List.foldl_append]
  rfl

theorem number_msb {width n : ℕ} (h : n < 2 ^ width) : number (msb width n) = n := by
  induction width generalizing n with
  | zero =>
    obtain rfl : n = 0 := Nat.lt_one_iff.mp h
    rfl
  | succ width ih =>
    rw [Nat.pow_succ] at h
    rw [msb, number_snoc, ih (by omega)]
    by_cases hodd : n % 2 = 1
    · rw [decide_eq_true hodd, Bool.toNat_true]
      omega
    · rw [decide_eq_false hodd, Bool.toNat_false]
      omega

/-- INTERNAL: the number of a bit string fits its width, and its bits are the bit string. -/
theorem msb_number (bits : List Bool) : msb bits.length (number bits) = bits ∧ number bits < 2 ^ bits.length := by
  induction bits using List.reverseRecOn with
  | nil => exact ⟨rfl, Nat.one_pos⟩
  | append_singleton bits bit ih =>
    rw [List.length_append, List.length_singleton, number_snoc, Nat.pow_succ, msb]
    cases bit with
    | true =>
      rw [Bool.toNat_true, show (2 * number bits + 1) / 2 = number bits by omega, ih.1]
      refine ⟨?_, by omega⟩
      rw [decide_eq_true (by omega)]
    | false =>
      rw [Bool.toNat_false, show (2 * number bits + 0) / 2 = number bits by omega, ih.1]
      refine ⟨?_, by omega⟩
      rw [decide_eq_false (by omega)]

/-- INTERNAL: the first byte. -/
theorem wholeBytes_byte (b : UInt8) (rest : List Bool) :
    wholeBytes (msb 8 b.toNat ++ rest) = b :: wholeBytes rest := by
  have hnumber : number (msb 8 b.toNat) = b.toNat := number_msb b.toNat_lt
  rw [show msb 8 b.toNat = [_, _, _, _, _, _, _, _] from rfl] at hnumber ⊢
  simp only [List.cons_append, List.nil_append, wholeBytes]
  rw [hnumber, UInt8.ofNat_toNat]

/-- **The bytes in front.** -/
theorem wholeBytes_append (bytes : List UInt8) (rest : List Bool) :
    wholeBytes (ofBytes bytes ++ rest) = bytes ++ wholeBytes rest := by
  induction bytes with
  | nil => rfl
  | cons b bytes ih =>
    unfold ofBytes at ih ⊢
    rw [List.flatMap_cons, List.append_assoc, wholeBytes_byte, ih, List.cons_append]

/-- INTERNAL: a leftover. -/
theorem wholeBytes_short {bits : List Bool} (h : bits.length < 8) : wholeBytes bits = [] := by
  unfold wholeBytes
  split
  · simp at h
    omega
  · rfl

end Bits

/-! ## Base32 -/

namespace Base32

open Bits

/-- A table of 32 characters; `value` inverts it. -/
structure Alphabet where
  char : ℕ → Char
  value : Char → Option ℕ
  value_char : ∀ n < 32, value (char n) = some n
  value_lt : ∀ c n, value c = some n → n < 32

variable (alphabet : Alphabet)

/-- The digits of a text. Other characters are no digits. -/
def digits (text : List Char) : List ℕ := text.filterMap alphabet.value

/-- The bits of digits. -/
def bitsOf (digits : List ℕ) : List Bool := digits.flatMap (msb 5)

/-- The whole bytes that a text stands for. -/
def decoded (text : List Char) : List UInt8 := wholeBytes (bitsOf (digits alphabet text))

/-- Groups of five bits, the last one filled up with zeros. -/
def groups (bits : List Bool) : List ℕ :=
  if bits = [] then []
  else number ((bits ++ List.replicate 4 false).take 5) :: groups (bits.drop 5)
termination_by bits.length
decreasing_by
  have hpos := List.length_pos_iff.mpr ‹¬bits = []›
  rw [List.length_drop]
  omega

/-- The encoding without padding. -/
def encode (bytes : List UInt8) : List Char := (groups (ofBytes bytes)).map alphabet.char

/-- The encoding with padding to a multiple of eight characters. -/
def padded (bytes : List UInt8) : List Char :=
  encode alphabet bytes ++ List.replicate ((8 - (encode alphabet bytes).length % 8) % 8) '='

/-- INTERNAL: the groups hold the bits and fewer than five zeros. -/
theorem groups_bits (bits : List Bool) :
    (∀ n ∈ groups bits, n < 32) ∧ ∃ zeros, bitsOf (groups bits) = bits ++ zeros ∧ zeros.length < 5 := by
  induction bits using groups.induct with
  | case1 =>
    rw [groups, if_pos rfl]
    exact ⟨by simp, [], rfl, by decide⟩
  | case2 bits hne ih =>
    obtain ⟨hlt, zeros, hzeros, hshort⟩ := ih
    have hpos := List.length_pos_iff.mpr hne
    have hlength : ((bits ++ List.replicate 4 false).take 5).length = 5 := by
      rw [List.length_take, List.length_append, List.length_replicate]
      omega
    obtain ⟨hbits, hsmall⟩ := msb_number ((bits ++ List.replicate 4 false).take 5)
    rw [hlength] at hbits hsmall
    rw [groups, if_neg hne]
    constructor
    · intro n hn
      rcases List.mem_cons.mp hn with rfl | hn
      · exact hsmall
      · exact hlt n hn
    · unfold bitsOf at hzeros ⊢
      rw [List.flatMap_cons, hbits, hzeros]
      by_cases hfull : 5 ≤ bits.length
      · refine ⟨zeros, ?_, hshort⟩
        rw [List.take_append_of_le_length hfull, ← List.append_assoc, List.take_append_drop]
      · have hdrop : bits.drop 5 = [] := List.drop_eq_nil_of_le (by omega)
        rw [hdrop] at hzeros ⊢
        obtain rfl : zeros = [] := by
          rw [groups, if_pos rfl] at hzeros
          exact hzeros.symm
        refine ⟨(List.replicate 4 false).take (5 - bits.length), ?_, ?_⟩
        · rw [List.take_append, List.take_of_length_le (by omega)]
          simp
        · rw [List.length_take, List.length_replicate]
          omega

/-- INTERNAL: the digits of an encoding are its groups. -/
theorem digits_map_char {ns : List ℕ} (h : ∀ n ∈ ns, n < 32) : digits alphabet (ns.map alphabet.char) = ns := by
  unfold digits
  induction ns with
  | nil => rfl
  | cons n ns ih =>
    rw [List.map_cons, List.filterMap_cons, alphabet.value_char n (h n List.mem_cons_self)]
    dsimp only
    rw [ih fun m hm => h m (List.mem_cons_of_mem n hm)]

/-- **A text with the digits of an encoding stands for the encoded bytes.** -/
theorem decoded_of_digits {bytes : List UInt8} {text : List Char}
    (h : digits alphabet text = digits alphabet (encode alphabet bytes)) : decoded alphabet text = bytes := by
  obtain ⟨hlt, zeros, hzeros, hshort⟩ := groups_bits (ofBytes bytes)
  unfold decoded
  rw [h, encode, digits_map_char alphabet hlt, hzeros, wholeBytes_append, wholeBytes_short (by omega),
    List.append_nil]

end Base32

end VaultAccess.Library
