import Mathlib.Data.List.Forall2

/-!
# Computations that fail

When a computation over `Except` succeeds: a sequence where its parts do, a list where every
element does. Each rule is an equivalence, so it serves to take a run apart and to put one
together.
-/

set_option autoImplicit false

namespace VaultAccess.Library.Results

variable {ε δ α β : Type}

/-- **A sequence succeeds where both of its parts do.** -/
theorem bind_ok_iff {x : Except ε α} {f : α → Except ε β} {b : β} :
    (x >>= f) = .ok b ↔ ∃ a, x = .ok a ∧ f a = .ok b := by
  cases x with
  | error e => exact ⟨nofun, fun ⟨_, h, _⟩ => nomatch h⟩
  | ok a =>
    constructor
    · exact fun h => ⟨a, rfl, h⟩
    · rintro ⟨_, ⟨⟩, h⟩
      exact h

theorem ok_bind {x : Except ε α} {a : α} (h : x = .ok a) (f : α → Except ε β) : (x >>= f) = f a := by
  rw [h]
  rfl

theorem mapError_ok_iff {x : Except ε α} {f : ε → δ} {a : α} : x.mapError f = .ok a ↔ x = .ok a := by
  cases x with
  | error e => exact ⟨nofun, nofun⟩
  | ok b => simp [Except.mapError]

/-- **A list succeeds where every element does.** -/
theorem mapM_ok_iff {f : α → Except ε β} (l : List α) (l' : List β) :
    l.mapM f = .ok l' ↔ List.Forall₂ (fun a b => f a = .ok b) l l' := by
  induction l generalizing l' with
  | nil =>
    rw [List.mapM_nil, List.forall₂_nil_left_iff]
    constructor
    · rintro ⟨⟩
      rfl
    · rintro rfl
      rfl
  | cons a l ih =>
    rw [List.mapM_cons, bind_ok_iff]
    constructor
    · rintro ⟨b, hb, hrest⟩
      obtain ⟨bs, hbs, ⟨⟩⟩ := bind_ok_iff.mp hrest
      exact .cons hb ((ih bs).mp hbs)
    · intro h
      cases h with
      | cons hb hbs => exact ⟨_, hb, bind_ok_iff.mpr ⟨_, (ih _).mpr hbs, rfl⟩⟩

/-- INTERNAL: no element of a list that succeeds fails. -/
theorem exists_of_mapM_ok {f : α → Except ε β} {l : List α} {l' : List β} (h : l.mapM f = .ok l') :
    ∀ a ∈ l, ∃ b, f a = .ok b := by
  rw [mapM_ok_iff] at h
  induction h with
  | nil => exact fun _ hmem => absurd hmem List.not_mem_nil
  | cons hhead _ ih =>
    intro a hmem
    rcases List.mem_cons.mp hmem with rfl | hmem
    · exact ⟨_, hhead⟩
    · exact ih a hmem

end VaultAccess.Library.Results
