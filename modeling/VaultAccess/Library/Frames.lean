import Mathlib.Algebra.Group.Basic
import Mathlib.Algebra.Order.Ring.Nat
import Mathlib.Data.Nat.Notation
import Mathlib.Tactic.SplitIfs

/-!
# Numbers and texts in a buffer of bytes

Little-endian numbers of a fixed width, checked slices of a buffer, entries with their
length in front, and texts that end with a zero byte.
-/

set_option autoImplicit false

namespace VaultAccess.Library.Frames

/-! ## Little-endian numbers -/

/-- The lowest `width` bytes of a number, lowest first. -/
def le : ℕ → ℕ → List UInt8
  | 0, _ => []
  | width + 1, n => UInt8.ofNat n :: le width (n / 256)

/-- The number of a list of bytes, lowest first. -/
def unle : List UInt8 → ℕ
  | [] => 0
  | b :: bytes => b.toNat + 256 * unle bytes

@[simp]
theorem length_le (width n : ℕ) : (le width n).length = width := by
  induction width generalizing n with
  | zero => rfl
  | succ width ih => simp [le, ih]

theorem unle_lt (bytes : List UInt8) : unle bytes < 256 ^ bytes.length := by
  induction bytes with
  | nil => simp [unle]
  | cons b bytes ih =>
    have hb := b.toNat_lt
    rw [unle, List.length_cons, pow_succ]
    omega

/-- A number that fits is read back. -/
theorem unle_le (width n : ℕ) (h : n < 256 ^ width) : unle (le width n) = n := by
  induction width generalizing n with
  | zero =>
    have hn : n = 0 := by simpa using h
    simp [le, unle, hn]
  | succ width ih =>
    have hn : n / 256 < 256 ^ width := by
      rw [pow_succ] at h
      omega
    rw [le, unle, ih _ hn, UInt8.toNat_ofNat']
    omega

/-- Bytes are written back. -/
theorem le_unle (bytes : List UInt8) : le bytes.length (unle bytes) = bytes := by
  induction bytes with
  | nil => rfl
  | cons b bytes ih =>
    have hb := b.toNat_lt
    have hlow : UInt8.ofNat (b.toNat + 256 * unle bytes) = b := by
      apply UInt8.toNat_inj.mp
      rw [UInt8.toNat_ofNat']
      omega
    have hrest : (b.toNat + 256 * unle bytes) / 256 = unle bytes := by omega
    rw [List.length_cons, le, unle, hlow, hrest, ih]

/-! ## Slices -/

/-- `bytes.get(start..stop)`. -/
def slice (bytes : List UInt8) (start stop : ℕ) : Option (List UInt8) :=
  if start ≤ stop ∧ stop ≤ bytes.length then some ((bytes.drop start).take (stop - start)) else none

/-- The part between a front and a back. -/
theorem slice_append (front part back : List UInt8) (start stop : ℕ) (hstart : start = front.length)
    (hstop : stop = front.length + part.length) :
    slice (front ++ (part ++ back)) start stop = some part := by
  subst hstart hstop
  rw [slice, if_pos ⟨by omega, by simp⟩, List.drop_left, Nat.add_sub_cancel_left, List.take_left]

/-- A slice is a part between a front and a back. -/
theorem slice_eq_some {bytes part : List UInt8} {start stop : ℕ} (h : slice bytes start stop = some part) :
    ∃ front back, bytes = front ++ (part ++ back) ∧ front.length = start ∧
      start + part.length = stop := by
  unfold slice at h
  split_ifs at h with hbounds
  rw [← Option.some.inj h]
  refine ⟨bytes.take start, (bytes.drop start).drop (stop - start), ?_, ?_, ?_⟩
  · rw [List.take_append_drop, List.take_append_drop]
  · rw [List.length_take]
    omega
  · rw [List.length_take, List.length_drop]
    omega

/-! ## Entries -/

/-- An entry with its length in front. -/
def frame (entry : List UInt8) : List UInt8 := le 4 entry.length ++ entry

@[simp]
theorem length_frame (entry : List UInt8) : (frame entry).length = entry.length + 4 := by
  simp [frame, Nat.add_comm]

/-- A text ends with a zero byte and holds no other. -/
def Terminated (entry : List UInt8) : Prop := ∃ text, entry = text ++ [0] ∧ (0 : UInt8) ∉ text

/-- The text of a terminated entry. -/
theorem Terminated.dropLast {value : List UInt8} (h : Terminated value) :
    value = value.dropLast ++ [0] ∧ (0 : UInt8) ∉ value.dropLast := by
  obtain ⟨text, rfl, htext⟩ := h
  simpa using htext

/-- `CStr::from_ptr(..).to_bytes()` at an offset of a buffer; nothing if it would read past the
end. -/
def cstr (bytes : List UInt8) (offset : ℕ) : Option (List UInt8) :=
  if (0 : UInt8) ∈ bytes.drop offset then some ((bytes.drop offset).takeWhile (· ≠ 0)) else none

/-- A terminated entry of a buffer is read without its zero byte. -/
theorem cstr_append (front text back : List UInt8) (htext : (0 : UInt8) ∉ text) :
    cstr (front ++ (text ++ 0 :: back)) front.length = some text := by
  have hmem : (0 : UInt8) ∈ text ++ 0 :: back := List.mem_append_right _ List.mem_cons_self
  rw [cstr, List.drop_left, if_pos hmem]
  congr 1
  rw [List.takeWhile_append_of_pos]
  · simp
  · intro b hb
    simp only [ne_eq, decide_eq_true_eq]
    rintro rfl
    exact htext hb

end VaultAccess.Library.Frames
