import Mathlib.Data.Nat.Bitwise
import Mathlib.Data.Nat.Notation
import VaultAccess.Library.Frames

/-!
# Computations that may fault

Compiled code ends with a value, refuses its input with an error, or faults: an index is out
of bounds, a machine integer overflows, a divisor is zero. `Safe` says that a computation
does not fault and what holds of its value; its rules follow the computation step by step.
-/

set_option autoImplicit false

namespace VaultAccess.Library

inductive Fault where
  | outOfBounds
  | overflow
  | divisionByZero
  deriving DecidableEq, Repr

/-- A value, an error that is returned, or a fault. -/
inductive Checked (ε α : Type) where
  | value (result : α)
  | refuse (error : ε)
  | fault (flaw : Fault)
  deriving DecidableEq, Repr

namespace Checked

variable {ε α β : Type}

def bind : Checked ε α → (α → Checked ε β) → Checked ε β
  | value a, f => f a
  | refuse error, _ => refuse error
  | fault flaw, _ => fault flaw

instance : Monad (Checked ε) where
  pure := value
  bind := bind

/-- The error unless there is a value. -/
def okOr (error : ε) : Option α → Checked ε α
  | none => refuse error
  | some a => value a

/-- The error when the condition holds. -/
def refuseIf (error : ε) (condition : Bool) : Checked ε Unit :=
  if condition then refuse error else value ()

/-- `l[i]`. -/
def index (l : List α) (i : ℕ) : Checked ε α :=
  match l[i]? with
  | none => .fault .outOfBounds
  | some a => value a

/-- `l[start..stop]`. -/
def window (l : List α) (start stop : ℕ) : Checked ε (List α) :=
  if start ≤ stop ∧ stop ≤ l.length then value ((l.drop start).take (stop - start))
  else .fault .outOfBounds

/-- A sum of machine integers of so many bits. -/
def add (bits a b : ℕ) : Checked ε ℕ := if a + b < 2 ^ bits then value (a + b) else .fault .overflow

/-- A product of machine integers. -/
def mul (bits a b : ℕ) : Checked ε ℕ := if a * b < 2 ^ bits then value (a * b) else .fault .overflow

/-- A difference of machine integers. -/
def sub (a b : ℕ) : Checked ε ℕ := if b ≤ a then value (a - b) else .fault .overflow

/-- A remainder of machine integers. -/
def rem (a b : ℕ) : Checked ε ℕ := if b = 0 then .fault .divisionByZero else value (a % b)

/-- A quotient of machine integers. -/
def div (a b : ℕ) : Checked ε ℕ := if b = 0 then .fault .divisionByZero else value (a / b)

/-- `a << n`: bits that are shifted out are lost. -/
def shl (bits a n : ℕ) : Checked ε ℕ := if n < bits then value (a <<< n % 2 ^ bits) else .fault .overflow

/-- `a >> n`. -/
def shr (bits a n : ℕ) : Checked ε ℕ := if n < bits then value (a >>> n) else .fault .overflow

/-- `checked_add`. -/
def checkedAdd (bits a b : ℕ) : Option ℕ := if a + b < 2 ^ bits then some (a + b) else none

/-- The computation does not fault, and its value has the property. -/
def Safe (x : Checked ε α) (property : α → Prop) : Prop :=
  match x with
  | value a => property a
  | refuse _ => True
  | .fault _ => False

section Safe

variable {x : Checked ε α} {f : α → Checked ε β} {P P' : α → Prop} {Q : β → Prop} {error : ε}

/-- **One computation after another.** -/
theorem Safe.bind (hx : Safe x P) (hf : ∀ a, P a → Safe (f a) Q) : Safe (x >>= f) Q := by
  cases x with
  | value a => exact hf a hx
  | refuse error => trivial
  | fault flaw => exact hx

theorem Safe.value {a : α} (h : P a) : Safe (pure a : Checked ε α) P := h

theorem Safe.refuse : Safe (refuse error : Checked ε α) P := trivial

theorem Safe.mono (hx : Safe x P) (h : ∀ a, P a → P' a) : Safe x P' := by
  cases x with
  | value a => exact h a hx
  | refuse error => trivial
  | fault flaw => exact hx

/-- **A loop** whose steps keep an invariant. -/
theorem Safe.foldlM {σ : Type} {f : σ → α → Checked ε σ} {Inv : σ → Prop} {items : List α}
    (hstep : ∀ state, ∀ a ∈ items, Inv state → Safe (f state a) Inv) {start : σ} (h : Inv start) :
    Safe (items.foldlM f start) Inv := by
  induction items generalizing start with
  | nil => exact h
  | cons a items ih =>
    rw [List.foldlM_cons]
    apply Safe.bind (hstep start a List.mem_cons_self h)
    intro next hnext
    exact ih (fun state b hb => hstep state b (List.mem_cons_of_mem a hb)) hnext

theorem safe_refuseIf (error : ε) (condition : Bool) : Safe (refuseIf error condition) fun _ => condition = false := by
  unfold refuseIf
  split
  · trivial
  · next h => exact Bool.eq_false_iff.mpr h

theorem safe_okOr (error : ε) (value : Option α) : Safe (okOr error value) fun a => value = some a := by
  cases value with
  | none => trivial
  | some a => rfl

theorem safe_index {l : List α} {i : ℕ} (h : i < l.length) :
    Safe (index l i : Checked ε α) fun a => l[i]? = some a := by
  unfold index
  rw [List.getElem?_eq_getElem h]
  rfl

theorem safe_window {l : List α} {start stop : ℕ} (h : start ≤ stop) (hstop : stop ≤ l.length) :
    Safe (window l start stop : Checked ε (List α)) fun part => part = (l.drop start).take (stop - start) := by
  unfold window
  rw [if_pos ⟨h, hstop⟩]
  rfl

theorem safe_add {bits a b : ℕ} (h : a + b < 2 ^ bits) : Safe (add bits a b : Checked ε ℕ) fun n => n = a + b := by
  unfold add
  rw [if_pos h]
  rfl

theorem safe_mul {bits a b : ℕ} (h : a * b < 2 ^ bits) : Safe (mul bits a b : Checked ε ℕ) fun n => n = a * b := by
  unfold mul
  rw [if_pos h]
  rfl

theorem safe_sub {a b : ℕ} (h : b ≤ a) : Safe (sub a b : Checked ε ℕ) fun n => n = a - b := by
  unfold sub
  rw [if_pos h]
  rfl

theorem safe_rem {a b : ℕ} (h : b ≠ 0) : Safe (rem a b : Checked ε ℕ) fun n => n = a % b := by
  unfold rem
  rw [if_neg h]
  rfl

theorem safe_div {a b : ℕ} (h : b ≠ 0) : Safe (div a b : Checked ε ℕ) fun n => n = a / b := by
  unfold div
  rw [if_neg h]
  rfl

theorem safe_shl {bits a n : ℕ} (h : n < bits) :
    Safe (shl bits a n : Checked ε ℕ) fun m => m = a <<< n % 2 ^ bits := by
  unfold shl
  rw [if_pos h]
  rfl

theorem safe_shr {bits a n : ℕ} (h : n < bits) : Safe (shr bits a n : Checked ε ℕ) fun m => m = a >>> n := by
  unfold shr
  rw [if_pos h]
  rfl

theorem checkedAdd_eq_some {bits a b n : ℕ} : checkedAdd bits a b = some n ↔ n = a + b ∧ a + b < 2 ^ bits := by
  unfold checkedAdd
  split
  · next h => simp [h, eq_comm]
  · next h => simp [h]

/-- INTERNAL: a sum that is past a limit, or does not fit, is refused. -/
theorem checkedAdd_within {bits a b limit : ℕ} (h : (checkedAdd bits a b).all (fun n => decide (limit < n)) = false) :
    a + b < 2 ^ bits ∧ a + b ≤ limit := by
  unfold checkedAdd at h
  split at h
  · next hfits => exact ⟨hfits, by simpa using h⟩
  · simp at h

end Safe

end Checked

/-! ## Rounding to pages -/

namespace Pages

/-- `x & !mask` for integers of so many bits. -/
def clear (bits x mask : ℕ) : ℕ := x &&& ((2 ^ bits - 1) ^^^ mask)

/-- **Clearing the low bits rounds down to a page.** -/
theorem clear_eq {bits x k : ℕ} (hx : x < 2 ^ bits) : clear bits x (2 ^ k - 1) = x / 2 ^ k * 2 ^ k := by
  apply Nat.eq_of_testBit_eq
  intro i
  rw [clear, Nat.testBit_and, Nat.testBit_xor, Nat.testBit_two_pow_sub_one, Nat.testBit_two_pow_sub_one,
    Nat.testBit_mul_two_pow, Nat.testBit_div_two_pow]
  by_cases hi : i < bits
  · by_cases hk : k ≤ i
    · rw [Nat.sub_add_cancel hk]
      simp [hi, hk]
    · simp [hi, hk]
      omega
  · have hbit : x.testBit i = false := Nat.testBit_lt_two_pow (lt_of_lt_of_le hx
      (Nat.pow_le_pow_right (by omega) (by omega)))
    by_cases hk : k ≤ i
    · rw [Nat.sub_add_cancel hk, hbit]
      simp
    · simp [hbit, hk]

/-- **Rounding up to a page** is rounding down the last byte of the page that follows. -/
theorem clear_add_eq {bits x k : ℕ} (hx : x + (2 ^ k - 1) < 2 ^ bits) :
    clear bits (x + (2 ^ k - 1)) (2 ^ k - 1) = (x + 2 ^ k - 1) / 2 ^ k * 2 ^ k := by
  have hpositive := Nat.two_pow_pos k
  rw [clear_eq hx, Nat.add_sub_assoc hpositive]

end Pages

end VaultAccess.Library
