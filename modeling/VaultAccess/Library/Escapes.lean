import VaultAccess.Library.Text
import Mathlib.Data.List.Basic

/-!
# Texts that can be read in one way only

Characters that are written one after the other, each in a way that begins no other one, and rows
that are separated by a character none of them has, are told by the text they make.
-/

set_option autoImplicit false

namespace VaultAccess.Library.Text

/-! ## Codes -/

section Codes

variable {α β : Type} {f : α → List β} {stop : β}

/-- **A text of codes is read up to its end**, when no code begins another one or with the end. -/
theorem flatMap_append_inj (hcode : ∀ a b x y, f a ++ x = f b ++ y → a = b ∧ x = y)
    (hstop : ∀ a x y, f a ++ x ≠ stop :: y) (s t : List α) {x y : List β}
    (h : s.flatMap f ++ stop :: x = t.flatMap f ++ stop :: y) : s = t ∧ x = y := by
  induction s generalizing t with
  | nil =>
    cases t with
    | nil => simpa using h
    | cons b t =>
      rw [List.flatMap_cons, List.append_assoc] at h
      exact absurd h.symm (hstop b _ _)
  | cons a s ih =>
    cases t with
    | nil =>
      rw [List.flatMap_cons, List.append_assoc] at h
      exact absurd h (hstop a _ _)
    | cons b t =>
      rw [List.flatMap_cons, List.flatMap_cons, List.append_assoc, List.append_assoc] at h
      obtain ⟨rfl, htail⟩ := hcode a b _ _ h
      obtain ⟨rfl, hend⟩ := ih t htail
      exact ⟨rfl, hend⟩

end Codes

/-! ## Rows -/

/-- INTERNAL: **separated rows are the parts of their text.** -/
theorem split_intercalate {separator : Char} {rows : List (List Char)} (hnonempty : rows ≠ [])
    (h : ∀ row ∈ rows, separator ∉ row) : split separator ([separator].intercalate rows) = rows := by
  induction rows with
  | nil => exact absurd rfl hnonempty
  | cons row rows ih =>
    simp only [List.mem_cons, forall_eq_or_imp] at h
    cases rows with
    | nil =>
      simp only [List.intercalate, List.intersperse, List.flatten_cons, List.flatten_nil, List.append_nil]
      exact split_of_notMem h.1
    | cons next rest =>
      have hrest := ih (by simp) h.2
      rw [show [separator].intercalate (row :: next :: rest) =
        row ++ separator :: [separator].intercalate (next :: rest) by simp [List.intercalate]]
      rw [split_append h.1, hrest]

end VaultAccess.Library.Text
