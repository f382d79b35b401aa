import VaultAccess.Library.Frames

/-!
# Encodings whose end can be read off

An encoding is self-delimiting when two encodings, with anything behind them, agree only if
the encoded values agree and so does what is behind them. Encodings of one length are, and so
is a text with its length in front; the property is kept by putting encodings one after the
other, so that a message built from such fields tells its fields.
-/

set_option autoImplicit false

namespace VaultAccess.Library

variable {α β γ : Type}

/-- Among the values of `P`, an encoding and what is behind it are told apart. -/
def SelfDelimiting (P : α → Prop) (encode : α → List β) : Prop :=
  ∀ ⦃a a' : α⦄ ⦃rest rest' : List β⦄, P a → P a' → encode a ++ rest = encode a' ++ rest' →
    a = a' ∧ rest = rest'

namespace SelfDelimiting

variable {P : α → Prop} {Q : γ → Prop} {encode : α → List β} {encode' : γ → List β}

theorem injective (h : SelfDelimiting P encode) {a a' : α} (ha : P a) (ha' : P a')
    (heq : encode a = encode a') : a = a' := by
  have hnil : encode a ++ [] = encode a' ++ [] := by rw [heq]
  exact (h ha ha' hnil).1

/-- Encodings of one length. -/
theorem of_length (n : ℕ) (hlength : ∀ a, P a → (encode a).length = n)
    (hinj : ∀ a a', P a → P a' → encode a = encode a' → a = a') : SelfDelimiting P encode := by
  intro a a' rest rest' ha ha' heq
  have hsame : (encode a).length = (encode a').length := by rw [hlength a ha, hlength a' ha']
  obtain ⟨hfront, hrest⟩ := List.append_inj heq hsame
  exact ⟨hinj a a' ha ha' hfront, hrest⟩

/-- A text with its length in front. -/
theorem prefixed {size : ℕ → List β} {bound : ℕ} (h : SelfDelimiting (· < bound) size) :
    SelfDelimiting (fun data : List β => data.length < bound)
      fun data => size data.length ++ data := by
  intro data data' rest rest' hdata hdata' heq
  rw [List.append_assoc, List.append_assoc] at heq
  obtain ⟨hsize, hbehind⟩ := h hdata hdata' heq
  exact List.append_inj hbehind hsize

/-- Equally many values one after the other. -/
theorem flatMap (h : SelfDelimiting P encode) {values values' : List α} {rest rest' : List β}
    (hall : ∀ a ∈ values, P a) (hall' : ∀ a ∈ values', P a) (hlength : values.length = values'.length)
    (heq : values.flatMap encode ++ rest = values'.flatMap encode ++ rest') :
    values = values' ∧ rest = rest' := by
  induction values generalizing values' with
  | nil =>
    obtain rfl : values' = [] := List.length_eq_zero_iff.mp hlength.symm
    exact ⟨rfl, heq⟩
  | cons a values ih =>
    cases values' with
    | nil => simp at hlength
    | cons a' values' =>
      rw [List.flatMap_cons, List.flatMap_cons, List.append_assoc, List.append_assoc] at heq
      obtain ⟨rfl, hbehind⟩ := h (hall a List.mem_cons_self) (hall' a' List.mem_cons_self) heq
      obtain ⟨rfl, hrest⟩ := ih (fun b hb => hall b (List.mem_cons_of_mem _ hb))
        (fun b hb => hall' b (List.mem_cons_of_mem _ hb)) (by simpa using hlength) hbehind
      exact ⟨rfl, hrest⟩

/-- A list with its length in front. -/
theorem counted {size : ℕ → List β} {bound : ℕ} (hsize : SelfDelimiting (· < bound) size)
    (h : SelfDelimiting P encode) :
    SelfDelimiting (fun values : List α => values.length < bound ∧ ∀ a ∈ values, P a)
      fun values => size values.length ++ values.flatMap encode := by
  intro values values' rest rest' hvalues hvalues' heq
  rw [List.append_assoc, List.append_assoc] at heq
  obtain ⟨hlength, hbehind⟩ := hsize hvalues.1 hvalues'.1 heq
  exact h.flatMap hvalues.2 hvalues'.2 hlength hbehind

end SelfDelimiting

/-! ## Big-endian numbers and frames -/

namespace Frames

/-- The lowest `width` bytes of a number, highest first. -/
def be (width n : ℕ) : List UInt8 := (le width n).reverse

@[simp]
theorem length_be (width n : ℕ) : (be width n).length = width := by simp [be]

theorem selfDelimiting_be (width : ℕ) : SelfDelimiting (· < 256 ^ width) (be width) := by
  apply SelfDelimiting.of_length width
  · intro n _
    exact length_be width n
  · intro n m hn hm heq
    rw [be, be, List.reverse_inj] at heq
    rw [← unle_le width n hn, heq, unle_le width m hm]

/-- An entry with its length in front, as a big-endian number of four bytes. -/
def beFrame (entry : List UInt8) : List UInt8 := be 4 entry.length ++ entry

theorem selfDelimiting_beFrame :
    SelfDelimiting (fun entry : List UInt8 => entry.length < 256 ^ 4) beFrame :=
  (selfDelimiting_be 4).prefixed

end Frames

end VaultAccess.Library
