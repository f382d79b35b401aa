import VaultAccess.Library.Runs

/-!
# What a history remembers

The past-time operator *since* on the entries of a run, and the rule that carries an
invariant of a history together with the state it leads to.
-/

set_option autoImplicit false

namespace VaultAccess.Library

variable {State Call Answer : Type}

/-- Some entry was marked after the entries before it, and every entry after it was quiet. -/
def Since {α : Type} (Marked : List α → α → Prop) (Quiet : α → Prop) (history : List α) : Prop :=
  ∃ earlier entry between, history = earlier ++ entry :: between ∧ Marked earlier entry ∧
    ∀ x ∈ between, Quiet x

section Since

variable {α : Type} {Marked Marked' : List α → α → Prop} {Quiet Quiet' : α → Prop}
  {history : List α} {entry : α}

/-- **One more entry**: it is the marked one, or it is quiet. -/
theorem since_snoc :
    Since Marked Quiet (history ++ [entry]) ↔
      Marked history entry ∨ Since Marked Quiet history ∧ Quiet entry := by
  constructor
  · rintro ⟨earlier, marked, between, heq, hmarked, hbetween⟩
    rcases split_snoc heq with ⟨rfl, rfl, -⟩ | ⟨rest, rfl, hhistory⟩
    · exact Or.inl hmarked
    · apply Or.inr
      constructor
      · exact ⟨earlier, marked, rest, hhistory, hmarked, fun x hx =>
          hbetween x (List.mem_append_left _ hx)⟩
      · exact hbetween entry (by simp)
  · rintro (hmarked | ⟨⟨earlier, marked, between, rfl, hmarked, hbetween⟩, hquiet⟩)
    · refine ⟨history, entry, [], rfl, hmarked, ?_⟩
      intro x hx
      cases hx
    · refine ⟨earlier, marked, between ++ [entry], by simp, hmarked, ?_⟩
      intro x hx
      rcases List.mem_append.mp hx with hold | hnew
      · exact hbetween x hold
      · rw [List.mem_singleton.mp hnew]
        exact hquiet

theorem not_since_nil : ¬ Since Marked Quiet [] := by
  rintro ⟨earlier, marked, between, heq, -⟩
  simp at heq

/-- INTERNAL: weaker marks and weaker demands on the entries after them. -/
theorem Since.imp (h : Since Marked Quiet history)
    (hmarked : ∀ earlier x, Marked earlier x → Marked' earlier x) (hquiet : ∀ x, Quiet x → Quiet' x) :
    Since Marked' Quiet' history := by
  obtain ⟨earlier, marked, between, rfl, hmark, hbetween⟩ := h
  exact ⟨earlier, marked, between, rfl, hmarked earlier marked hmark,
    fun x hx => hquiet x (hbetween x hx)⟩

/-- **Between an entry that is neither marked nor quiet and the end, something was marked.** -/
theorem Since.between {earlier mid : List α} {y : α} (h : Since Marked Quiet (earlier ++ y :: mid))
    (hmarked : ∀ before, ¬ Marked before y) (hquiet : ¬ Quiet y) :
    ∃ z ∈ mid, ∃ before, Marked before z := by
  obtain ⟨front, z, between, heq, hz, hbetween⟩ := h
  rcases List.append_eq_append_iff.mp heq with ⟨rest, rfl, hrest⟩ | ⟨rest, rfl, hrest⟩
  · cases rest with
    | nil =>
      obtain ⟨rfl, -⟩ := List.cons.inj hrest
      exact absurd hz (hmarked _)
    | cons first rest =>
      obtain ⟨rfl, rfl⟩ := List.cons.inj hrest
      exact ⟨z, by simp, _, hz⟩
  · cases rest with
    | nil =>
      obtain ⟨rfl, -⟩ := List.cons.inj hrest
      exact absurd hz (hmarked _)
    | cons first rest =>
      obtain ⟨rfl, rfl⟩ := List.cons.inj hrest
      exact absurd (hbetween y (by simp)) hquiet

end Since

/-- **The invariant rule for histories**: what holds of the entries so far and of the state they
lead to, and is kept by every call, holds where each entry of the trace begins. -/
theorem trace_history {step : State → Call → Answer × State}
    (Inv : List (Entry State Call Answer) → State → Prop)
    (hstep : ∀ history s call, Inv history s →
      Inv (history ++ [entryAt step s call]) (step s call).2)
    {s : State} {calls : List Call} {past front back : List (Entry State Call Answer)}
    {e : Entry State Call Answer} (h : trace step s calls = front ++ e :: back) (hs : Inv past s) :
    Inv (past ++ front) e.before := by
  induction calls generalizing s front past with
  | nil => exact absurd h (by simp [trace])
  | cons call rest ih =>
    cases front with
    | nil =>
      obtain ⟨rfl, -⟩ := List.cons.inj h
      rw [List.append_nil]
      exact hs
    | cons first front =>
      obtain ⟨rfl, hrest⟩ := List.cons.inj h
      have hinv := ih hrest (hstep past s call hs)
      rwa [List.append_assoc, List.singleton_append] at hinv

end VaultAccess.Library
