import Mathlib.Data.List.Forall2
import Mathlib.Data.Nat.Notation

/-!
# Fallible maps over lists, and erasing from them

Traversals in `Option` read as pairwise relations, and what erasing the first match leaves.
-/

set_option autoImplicit false

namespace VaultAccess.Library

variable {α β : Type}

/-- **A traversal succeeds exactly when every element is mapped.** -/
theorem mapM_eq_some_iff (f : α → Option β) (l : List α) (l' : List β) :
    l.mapM f = some l' ↔ List.Forall₂ (fun a b => f a = some b) l l' := by
  induction l generalizing l' with
  | nil =>
    rw [List.mapM_nil, List.forall₂_nil_left_iff]
    exact ⟨fun h => (Option.some.inj h).symm, fun h => by rw [h]; rfl⟩
  | cons a l ih =>
    rw [List.mapM_cons, List.forall₂_cons_left_iff]
    constructor
    · intro h
      simp only [Option.bind_eq_bind, Option.bind_eq_some_iff, Option.pure_def,
        Option.some.injEq] at h
      obtain ⟨b, hb, bs, hbs, rfl⟩ := h
      exact ⟨b, bs, hb, (ih bs).mp hbs, rfl⟩
    · rintro ⟨b, bs, hb, hbs, rfl⟩
      simp [hb, (ih bs).mpr hbs]

theorem mapM_eq_some_self (f : α → Option α) (l : List α) (h : ∀ a ∈ l, f a = some a) :
    l.mapM f = some l := by
  rw [mapM_eq_some_iff]
  exact List.forall₂_same.mpr h

/-- INTERNAL: a pairwise relation may use that its left element is in the list. -/
theorem forall₂_imp_mem {R S : α → β → Prop} {l : List α} {l' : List β} (h : List.Forall₂ R l l')
    (himp : ∀ a ∈ l, ∀ b, R a b → S a b) : List.Forall₂ S l l' := by
  induction h with
  | nil => exact .nil
  | cons hab _ ih =>
    exact .cons (himp _ (by simp) _ hab) (ih fun a ha => himp a (by simp [ha]))

/-- INTERNAL: every right element of a pairwise relation has its left element. -/
theorem exists_left_of_forall₂ {R : α → β → Prop} {l : List α} {l' : List β}
    (h : List.Forall₂ R l l') (b : β) (hb : b ∈ l') : ∃ a ∈ l, R a b := by
  induction h with
  | nil => simp at hb
  | cons hab _ ih =>
    rcases List.mem_cons.mp hb with rfl | hmem
    · exact ⟨_, by simp, hab⟩
    · obtain ⟨a, ha, hR⟩ := ih hmem
      exact ⟨a, by simp [ha], hR⟩

/-- INTERNAL: every left element of a pairwise relation has its right element. -/
theorem exists_right_of_forall₂ {R : α → β → Prop} {l : List α} {l' : List β}
    (h : List.Forall₂ R l l') (a : α) (ha : a ∈ l) : ∃ b ∈ l', R a b := by
  induction h with
  | nil => simp at ha
  | cons hab _ ih =>
    rcases List.mem_cons.mp ha with rfl | hmem
    · exact ⟨_, by simp, hab⟩
    · obtain ⟨b, hb, hR⟩ := ih hmem
      exact ⟨b, by simp [hb], hR⟩

theorem exists_of_mem_mapM (f : α → Option β) (l : List α) (l' : List β) (h : l.mapM f = some l')
    (b : β) (hb : b ∈ l') : ∃ a ∈ l, f a = some b :=
  exists_left_of_forall₂ ((mapM_eq_some_iff f l l').mp h) b hb

/-- INTERNAL: erasing the first match drops the first of the matches. -/
theorem filter_eraseP (p : α → Bool) (l : List α) : (l.eraseP p).filter p = (l.filter p).drop 1 := by
  induction l with
  | nil => rfl
  | cons a l ih =>
    cases ha : p a with
    | true => simp [ha]
    | false => simp [ha, ih]

/-- INTERNAL: erasing the first match keeps the other elements. -/
theorem filter_not_eraseP (p : α → Bool) (l : List α) :
    (l.eraseP p).filter (fun a => !p a) = l.filter fun a => !p a := by
  induction l with
  | nil => rfl
  | cons a l ih =>
    cases ha : p a with
    | true => simp [ha]
    | false => simp [ha, ih]

theorem eraseIdx_of_findIdx? {p : α → Bool} {l : List α} {i : ℕ} (h : l.findIdx? p = some i) :
    l.eraseIdx i = l.eraseP p := by
  rw [List.eraseP_eq_eraseIdx, h]

end VaultAccess.Library
