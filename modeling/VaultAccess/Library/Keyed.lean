import Mathlib.Data.List.Forall2
import Mathlib.Data.List.Perm.Subperm

/-!
# Lists of pairs with distinct keys

Two such lists of one length are equal up to order as soon as every pair of the one has its
key in the other: by count, nothing is left over.
-/

set_option autoImplicit false

namespace VaultAccess.Library.Keyed

variable {κ α β : Type}

/-- INTERNAL: all keys of as many pairs are keys that are looked for. -/
theorem keys_subset {found : List (κ × α)} {wanted : List (κ × β)}
    (hwanted : (wanted.map Prod.fst).Nodup) (hlength : found.length = wanted.length)
    (h : ∀ w ∈ wanted, ∃ a, (w.1, a) ∈ found) : ∀ f ∈ found, ∃ b, (f.1, b) ∈ wanted := by
  have hsub : wanted.map Prod.fst ⊆ found.map Prod.fst := by
    intro key hkey
    obtain ⟨w, hw, rfl⟩ := List.mem_map.mp hkey
    obtain ⟨a, ha⟩ := h w hw
    exact List.mem_map.mpr ⟨_, ha, rfl⟩
  have hperm : (wanted.map Prod.fst).Perm (found.map Prod.fst) := by
    apply (hwanted.subperm hsub).perm_of_length_le
    simp only [List.length_map]
    omega
  intro f hf
  have hkey : f.1 ∈ wanted.map Prod.fst := hperm.mem_iff.mpr (List.mem_map.mpr ⟨f, hf, rfl⟩)
  obtain ⟨⟨key, b⟩, hw, heq⟩ := List.mem_map.mp hkey
  obtain rfl : key = f.1 := heq
  exact ⟨b, hw⟩

/-- **Found by key and by count**: the list that is looked through is the one that is looked for,
up to order. -/
theorem exists_perm {R : α → β → Prop} {found : List (κ × α)} {wanted : List (κ × β)}
    (hfound : (found.map Prod.fst).Nodup) (hwanted : (wanted.map Prod.fst).Nodup)
    (hlength : found.length = wanted.length)
    (h : ∀ w ∈ wanted, ∃ a, (w.1, a) ∈ found ∧ R a w.2) :
    ∃ paired, List.Forall₂ (fun f p => p.1 = f.1 ∧ R f.2 p.2) found paired ∧ paired.Perm wanted := by
  induction found generalizing wanted with
  | nil =>
    obtain rfl : wanted = [] := List.length_eq_zero_iff.mp hlength.symm
    exact ⟨[], .nil, .refl _⟩
  | cons f found ih =>
    obtain ⟨b, hb⟩ := keys_subset hwanted hlength (fun w hw => (h w hw).imp fun _ => And.left) f
      List.mem_cons_self
    obtain ⟨before, behind, rfl⟩ := List.append_of_mem hb
    have hperm : ((f.1, b) :: (before ++ behind)).Perm (before ++ (f.1, b) :: behind) :=
      List.perm_middle.symm
    rw [← (hperm.map Prod.fst).nodup_iff, List.map_cons, List.nodup_cons] at hwanted
    rw [List.map_cons, List.nodup_cons] at hfound
    -- The pair of the first key is that of the first of the list.
    obtain ⟨a, ha, hR⟩ := h (f.1, b) hb
    have hfirst : f = (f.1, a) := by
      rcases List.mem_cons.mp ha with heq | hmem
      · exact heq.symm
      · exact absurd (List.mem_map.mpr ⟨_, hmem, rfl⟩) hfound.1
    have hrest : ∀ w ∈ before ++ behind, ∃ a, (w.1, a) ∈ found ∧ R a w.2 := by
      intro w hw
      obtain ⟨a', ha', hR'⟩ := h w (hperm.subset (List.mem_cons_of_mem _ hw))
      rcases List.mem_cons.mp ha' with heq | hmem
      · have hkey : w.1 = f.1 := congrArg Prod.fst heq
        exact absurd (List.mem_map.mpr ⟨w, hw, hkey⟩) hwanted.1
      · exact ⟨a', hmem, hR'⟩
    have hcount : found.length = (before ++ behind).length := by
      simp only [List.length_cons, List.length_append] at hlength ⊢
      omega
    obtain ⟨paired, hpaired, hsame⟩ := ih hfound.2 hwanted.2 hcount hrest
    refine ⟨(f.1, b) :: paired, .cons ⟨rfl, ?_⟩ hpaired, (hsame.cons _).trans hperm⟩
    rw [hfirst]
    exact hR

end VaultAccess.Library.Keyed
